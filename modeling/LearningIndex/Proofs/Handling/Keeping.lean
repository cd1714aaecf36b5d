import LearningIndex.Proofs.Ascending
import LearningIndex.Proofs.Handling.Naming
import LearningIndex.Proofs.Reconciliation.Inventory

/-!
# What calls keep

A document is written for a material, for a course and its session, or for a descriptor, and its id
names what it was written for.  Enumerations and deletions do not look at the id but at a field.  As
long as the indexes have been changed by calls of the indexers only, both tell the same: the
enumerations list what documents were written for, a deletion removes the documents that were
written for one thing, and indexing leaves the documents of other things alone.
-/

namespace LearningIndex

/-- What a document is written for. -/
inductive Identity where
  | material (id : Int)
  | course (id : Int)
  /-- A session, whatever its course is. -/
  | session (id : Int)
  | descriptor (id : String)

namespace Identity

/-- The index of the documents. -/
def home : Identity → String
  | material _ => LearningMaterialIndexer.indexName
  | course _ | session _ => CurriculumIndexer.indexName
  | descriptor _ => MeshIndexer.indexName

/-- The field by which the documents are found. -/
def field : Identity → String
  | material _ => LearningMaterialIndexer.idField
  | course _ => CurriculumIndexer.courseIdField
  | session _ => CurriculumIndexer.sessionIdField
  | descriptor _ => MeshIndexer.idField

/-- The value of the field in the documents. -/
def value : Identity → Json
  | material id | course id | session id => .integer id
  | descriptor id => .string id

/-- The id of a document names what it is written for. -/
def Names : Identity → Document → Prop
  | material id, document =>
    ∃ ordinal, document.id = LearningMaterialIndexer.documentId ordinal id
  | course id, document => ∃ session, document.id = CompositeCourse.documentId id session
  | session id, document => ∃ course, document.id = CompositeCourse.documentId course id
  | descriptor id, document => document.id = id

/-- A document of an index is written for it. -/
def Owns (identity : Identity) (index : String) (document : Document) : Prop :=
  index = identity.home ∧ identity.Names document

/-- The call that deletes its documents. -/
def deletion (indexers : Indexers) : Identity → Task Bool
  | material id => indexers.learningMaterials.delete id
  | course id => indexers.curriculum.deleteCourse id
  | session id => indexers.curriculum.deleteSession id
  | descriptor id => indexers.mesh.delete id

theorem deletion_eq (keepAlive : String) (uploadLimit : Nat) (identity : Identity) :
    identity.deletion (.new true keepAlive uploadLimit) =
      Catalog.deleteWhere ⟨identity.home, keepAlive, true⟩ identity.field identity.value := by
  cases identity <;> rfl

theorem Names.of_id_eq {identity : Identity} {document other : Document}
    (names : identity.Names document) (same : document.id = other.id) : identity.Names other := by
  cases identity <;> simpa only [Names, same] using names

/-- A document of the index has the value in the field exactly if its id names what it is written
for. -/
theorem names_iff {identity : Identity} {document : Document}
    (belongs : Belongs identity.home document) :
    identity.Names document ↔ document.get? identity.field = some identity.value := by
  cases identity with
  | material id =>
      obtain ⟨own, _, piece⟩ := belongs.piece rfl
      obtain ⟨number, named⟩ := piece.named
      constructor
      · rintro ⟨ordinal, other⟩
        rw [(LearningMaterialIndexer.documentId_inj.mp (other.symm.trans named)).2]
        exact piece.field
      · intro shown
        exact ⟨number, Document.integer_unique shown piece.field ▸ named⟩
  | course id =>
      obtain ⟨own, session, _, _, about⟩ := belongs.about rfl
      constructor
      · rintro ⟨_, other⟩
        rw [(CompositeCourse.documentId_inj.mp (other.symm.trans about.named)).1]
        exact about.course
      · intro shown
        exact ⟨session, Document.integer_unique shown about.course ▸ about.named⟩
  | session id =>
      obtain ⟨course, own, _, _, about⟩ := belongs.about rfl
      constructor
      · rintro ⟨_, other⟩
        rw [(CompositeCourse.documentId_inj.mp (other.symm.trans about.named)).2]
        exact about.session
      · intro shown
        exact ⟨course, Document.integer_unique shown about.session ▸ about.named⟩
  | descriptor id =>
      obtain ⟨own, entry⟩ := belongs.entry rfl
      constructor
      · intro named
        rw [← show document.id = id from named, entry.named]
        exact entry.field
      · intro shown
        exact entry.named.trans (Document.string_unique entry.field shown)

/-- Integers in documents of the indexers have 64 bits. -/
theorem isSigned64_of_names {identity : Identity} {document : Document} {id : Int}
    (valued : identity.value = .integer id) (belongs : Belongs identity.home document)
    (names : identity.Names document) : Json.isSigned64 id = true := by
  have shown := (names_iff belongs).mp names
  rw [valued] at shown
  cases identity with
  | material _ =>
      obtain ⟨_, fits, piece⟩ := belongs.piece rfl
      exact Document.integer_unique shown piece.field ▸ fits
  | course _ =>
      obtain ⟨_, _, fits, _, about⟩ := belongs.about rfl
      exact Document.integer_unique shown about.course ▸ fits
  | session _ =>
      obtain ⟨_, _, _, fits, about⟩ := belongs.about rfl
      exact Document.integer_unique shown about.session ▸ fits
  | descriptor _ => cases valued

end Identity

/-- What an entity is indexed as. -/
def Entity.identity : Entity → Identity
  | learningMaterial material => .material material.id
  | course composite => .course composite.course.id
  | meshDescriptor descriptor => .descriptor descriptor.id

theorem Entity.home_identity (entity : Entity) : entity.identity.home = entity.kind.home := by
  cases entity <;> rfl

theorem Entity.names_of_mem_documents {indexer : LearningMaterialIndexer} {time : String}
    {text : ByteString} {entity : Entity} {document : Document}
    (member : document ∈ entity.documents indexer time text) : entity.identity.Names document := by
  cases entity with
  | learningMaterial material =>
      obtain ⟨ordinal, chunk, rfl⟩ := LearningMaterialIndexer.mem_documents member
      exact ⟨ordinal, LearningMaterialIndexer.id_chunkDocument material ordinal chunk⟩
  | course composite =>
      obtain ⟨session, _, rfl⟩ := List.mem_map.mp member
      exact ⟨session.id, composite.id_document session⟩
  | meshDescriptor descriptor =>
      obtain rfl := List.mem_singleton.mp member
      exact descriptor.id_document time

/-- A call that changes an index. -/
inductive Change where
  | index (call : IndexCall)
  | delete (identity : Identity)

namespace Change

def task (keepAlive : String) (uploadLimit : Nat) : Change → Task Bool
  | index call => call.task keepAlive uploadLimit
  | delete identity => identity.deletion (.new true keepAlive uploadLimit)

/-- The ids of what is to be indexed have 64 bits. -/
def Fits : Change → Prop
  | index call => ∀ entity ∈ call.entities, entity.Fits
  | delete _ => True

/-- A call asks nothing that is not proper. -/
theorem proper_task {change : Change} (fits : change.Fits) (keepAlive : String)
    (uploadLimit : Nat) : (change.task keepAlive uploadLimit).Proper fun _ => True := by
  cases change with
  | delete identity =>
      rw [task, Identity.deletion_eq]
      exact Catalog.proper_deleteWhere _ _ _
  | index call =>
      by_cases uniform : call.IsUniform
      · rcases uniform.exists_items with
          ⟨materials, force, rfl⟩ | ⟨courses, stamp, rfl⟩ | ⟨descriptors, stamp, rfl⟩
        · exact LearningMaterialIndexer.proper_index keepAlive uploadLimit
            (List.forall_mem_map.mp fits) force
        · have fits := List.forall_mem_map.mp fits
          exact CurriculumIndexer.proper_index keepAlive
            (fun composite inside => (fits composite inside).1)
            (fun composite inside => (fits composite inside).2) stamp
        · exact MeshIndexer.proper_index keepAlive descriptors stamp
      · obtain ⟨error, failed⟩ := IndexCall.exists_error keepAlive uploadLimit uniform
        rw [task, failed]
        trivial

end Change

theorem Service.Request.Touches.isWrite {request : Service.Request} {index : String}
    (touches : request.Touches index) : request.IsWrite := by
  cases request with
  | engine call => cases call <;> trivial
  | file path => exact absurd touches id
  | clock => exact absurd touches id

section Calls

variable {σ : Type}

/-- States in which the indexes were empty at first and have been changed by calls of the indexers
only, one after the other.  A call may have failed at any of its requests. -/
inductive Arises (backend : Backend σ) : σ → Prop
  | empty {state : σ} (nothing : ∀ index, backend.documents state index = []) :
      Arises backend state
  | change {state : σ} (earlier : Arises backend state) {change : Change} (fits : change.Fits)
      (keepAlive : String) (uploadLimit : Nat) :
      Arises backend ((change.task keepAlive uploadLimit).run backend.serve state).2
  /-- Something happens that leaves the documents as they are. -/
  | idle {before after : σ} (earlier : Arises backend before)
      (same : backend.SameDocuments before after) : Arises backend after

variable {backend : Backend σ}

theorem Arises.orderly (exact : backend.Exact) {state : σ} (arises : Arises backend state) :
    Orderly backend state := by
  induction arises with
  | empty nothing =>
      intro index document member
      rw [nothing index] at member
      exact absurd member List.not_mem_nil
  | @change state _ change fits keepAlive uploadLimit ih =>
      have proper := (Change.proper_task fits keepAlive uploadLimit).of_yields
        (Program.yields_transcript backend.serve _ state)
      exact Program.run_preserves (fun exchange member _ orderly =>
        orderly.serve exact (proper exchange member)) ih
  | idle _ same ih =>
      intro index document member
      rw [same index] at member
      exact ih index document member

/-- An enumeration lists what has a document, in the given order. -/
def Enumerates {κ : Type} (backend : Backend σ) (state : σ) (task : Task (List κ))
    (order : κ → κ → Prop) (index : String) (identity : κ → Identity) : Prop :=
  ∃ ids,
    Catalog.Lists backend (backend.documents state index) ids (task.run backend.serve state).1 ∧
    ids.Pairwise order ∧
      ∀ id, id ∈ ids ↔ ∃ document ∈ backend.documents state index, (identity id).Names document

/-- A deletion removes what is written for one thing. -/
structure Removes (backend : Backend σ) (state : σ) (identity : Identity)
    (outcome : Except IndexingError Bool) (after : σ) : Prop where
  /-- The documents of other things stay as they are, and none are added. -/
  spares : ∀ index document, ¬ identity.Owns index document →
    (document ∈ backend.documents after index ↔ document ∈ backend.documents state index)
  /-- Success means that all its documents are gone. -/
  clears : outcome = .ok true →
    ∀ document ∈ backend.documents after identity.home, ¬ identity.Names document
  succeeds : backend.NeverFails → outcome = .ok true

section Facts

variable {state : σ}

/-- The integers in a field are those that documents were written for. -/
theorem enumerates_integers (exact : backend.Exact) (orderly : Orderly backend state)
    (keepAlive : String) {index field : String} {identity : Int → Identity}
    (home : ∀ id, (identity id).home = index) (found : ∀ id, (identity id).field = field)
    (valued : ∀ id, (identity id).value = .integer id) :
    Enumerates backend state (Catalog.distinctIds ⟨index, keepAlive, true⟩ field) (· < ·) index
      identity := by
  have enabled : (⟨index, keepAlive, true⟩ : Catalog).enabled = true := rfl
  have listed := (Catalog.distinctIds_ensures exact enabled trivial field state).run
    (backend.steady_refl fun _ => True)
  refine ⟨_, listed, Catalog.pairwise_ascending _, fun id => ?_⟩
  rw [Catalog.mem_integers_iff]
  have named (document : Document) (member : document ∈ backend.documents state index) :
      (identity id).Names document ↔ document.get? field = some (.integer id) := by
    rw [Identity.names_iff (home id ▸ orderly index document member), found, valued]
  constructor
  · rintro ⟨_, document, member, shown⟩
    exact ⟨document, member, (named document member).mpr shown⟩
  · rintro ⟨document, member, names⟩
    refine ⟨?_, document, member, (named document member).mp names⟩
    exact Identity.isSigned64_of_names (valued id) (home id ▸ orderly index document member) names

/-- The ids of descriptors are those that documents were written for, and none occurs twice. -/
theorem enumerates_descriptors (exact : backend.Exact) (orderly : Orderly backend state)
    (keepAlive : String) :
    Enumerates backend state (MeshIndexer.new true keepAlive).allIds (· ≠ ·)
      MeshIndexer.indexName .descriptor := by
  have enabled : (MeshIndexer.new true keepAlive).catalog.enabled = true := rfl
  have listed : Catalog.Lists backend (backend.documents state MeshIndexer.indexName)
      (Catalog.keysOf MeshIndexer.idField (backend.documents state MeshIndexer.indexName))
        ((MeshIndexer.new true keepAlive).allIds.run backend.serve state).1 :=
    (Catalog.allIds_ensures exact enabled trivial MeshIndexer.idField state).run
      (backend.steady_refl fun _ => True)
  have entries (document : Document)
      (member : document ∈ backend.documents state MeshIndexer.indexName) :
      document.get? MeshIndexer.idField = some (.string document.id) := by
    obtain ⟨id, entry⟩ := (orderly _ document member).entry rfl
    rw [entry.named, entry.field]
  have keys : Catalog.keysOf MeshIndexer.idField
      (backend.documents state MeshIndexer.indexName) =
        (backend.documents state MeshIndexer.indexName).map (·.id) := by
    rw [Catalog.keysOf, List.filterMap_eq_map_iff_forall_eq_some]
    intro document member
    rw [entries document member]
    rfl
  refine ⟨_, listed, ?_, fun id => ?_⟩
  · rw [keys]
    exact exact.distinct state MeshIndexer.indexName
  · rw [keys, List.mem_map]
    rfl

theorem run_deleteWhere (backend : Backend σ) {catalog : Catalog}
    (enabled : catalog.enabled = true) (field : String) (value : Json) (state : σ) :
    (catalog.deleteWhere field value).run backend.serve state =
      (((backend.serve (.engine (.deleteByQuery catalog.index (.term field value)))
          state).1.mapError .engine).map (·.isClean),
        (backend.serve (.engine (.deleteByQuery catalog.index (.term field value))) state).2) := by
  rw [Catalog.deleteWhere, Catalog.requireEngine_of_enabled enabled]
  exact Program.run_andThen_map backend.serve DeleteReply.isClean
    (Task.engine (.deleteByQuery catalog.index (.term field value))) state

/-- A deletion removes the documents that were written for one thing. -/
theorem removes_deletion (exact : backend.Exact) (orderly : Orderly backend state)
    (keepAlive : String) (uploadLimit : Nat) (identity : Identity) :
    Removes backend state identity
      ((identity.deletion (.new true keepAlive uploadLimit)).run backend.serve state).1
      ((identity.deletion (.new true keepAlive uploadLimit)).run backend.serve state).2 := by
  let request : Service.Request :=
    .engine (.deleteByQuery identity.home (.term identity.field identity.value))
  have enabled : (⟨identity.home, keepAlive, true⟩ : Catalog).enabled = true := rfl
  have spared := exact.spared_term identity.home identity.field identity.value state
  rw [Identity.deletion_eq, run_deleteWhere backend enabled]
  refine ⟨fun index document other => ?_, fun success document member names => ?_,
    fun never => ?_⟩
  · by_cases home : index = identity.home
    · subst home
      rw [Backend.mem_documents_iff exact, Backend.mem_documents_iff exact]
      rcases spared document.id with same | ⟨_, fields, present, shown⟩
      · rw [same]
      · -- Only documents with the value are removed, and in an orderly index they are its own.
        have member := Backend.mem_documents_of_stored exact present
        have names := (Identity.names_iff (orderly _ _ member)).mpr shown
        exact absurd ⟨rfl, names.of_id_eq rfl⟩ other
    · have untouched : ¬ request.Touches index := fun same => home same.symm
      rw [exact.kept request state index untouched]
  · have present := (Backend.mem_documents_iff exact).mp member
    rcases spared document.id with same | ⟨gone, _⟩
    · rw [same] at present
      have before := (Backend.mem_documents_iff exact).mpr present
      have shown := (Identity.names_iff (orderly _ document before)).mp names
      cases answered : (backend.serve request state).1 with
      | error error =>
          rw [answered] at success
          cases success
      | ok reply =>
          rw [answered] at success
          have gone := exact.removed_term answered (Except.ok.inj success) present shown
          rw [← same, gone] at present
          cases present
    · rw [gone] at present
      cases present
  · obtain ⟨reply, answered, clean⟩ := never.deletion identity.home
      (.term identity.field identity.value) state
    rw [answered]
    exact congrArg Except.ok clean

/-- Indexing leaves alone what was written for other things. -/
theorem mem_documents_index_iff (exact : backend.Exact) (keepAlive : String) (uploadLimit : Nat)
    (call : IndexCall) {index : String} {document : Document}
    (other : ∀ entity ∈ call.entities, ¬ entity.identity.Owns index document) :
    document ∈ backend.documents ((call.task keepAlive uploadLimit).run backend.serve state).2
        index ↔ document ∈ backend.documents state index := by
  let unchanged (moment : σ) : Prop :=
    document ∈ backend.documents moment index ↔ document ∈ backend.documents state index
  have run := Program.yields_transcript backend.serve (call.task keepAlive uploadLimit) state
  rw [← call.perform_true] at run
  have kept (exchange : Exchange services)
      (asked : exchange ∈ (call.task keepAlive uploadLimit).transcript backend.serve state)
      (moment : σ) (before : unchanged moment) :
      unchanged (backend.serve exchange.request moment).2 := by
    refine Iff.trans ?_ before
    by_cases touched : exchange.request.Touches index
    · obtain ⟨uniform, entities, time, found, within, same⟩ :=
        IndexCall.exists_documents_of_isWrite run asked touched.isWrite
      rw [same, Backend.mem_documents_iff exact, Backend.mem_documents_iff exact]
      rcases exact.replaced _ moment index document.id with same | ⟨operation, member, action, _⟩
      · rw [same]
      · obtain ⟨written, inside, rfl⟩ := List.mem_map.mp member
        obtain ⟨home, sameId⟩ := BulkAction.mk.inj action
        obtain ⟨entity, among, text, own⟩ := Entity.exists_of_mem_documentsInTurn inside
        have listed := within.subset among
        refine absurd ⟨?_, (Entity.names_of_mem_documents own).of_id_eq sameId⟩
          (other entity listed)
        rw [entity.home_identity, uniform entity listed, home]
    · rw [exact.kept exchange.request moment index touched]
  exact Program.run_preserves kept Iff.rfl

end Facts

/-- Enumerations, deletions and indexing agree on what documents are written for. -/
structure IdentityAgreement (backend : Backend σ) (state : σ) (keepAlive : String)
    (uploadLimit : Nat) : Prop where
  materials : Enumerates backend state
    (LearningMaterialIndexer.new true keepAlive uploadLimit).allIds (· < ·)
    LearningMaterialIndexer.indexName .material
  courses : Enumerates backend state (CurriculumIndexer.new true keepAlive).allCourseIds (· < ·)
    CurriculumIndexer.indexName .course
  sessions : Enumerates backend state (CurriculumIndexer.new true keepAlive).allSessionIds (· < ·)
    CurriculumIndexer.indexName .session
  descriptors : Enumerates backend state (MeshIndexer.new true keepAlive).allIds (· ≠ ·)
    MeshIndexer.indexName .descriptor
  /-- A deletion removes what is written for one thing. -/
  deletes : ∀ identity : Identity, Removes backend state identity
    ((identity.deletion (.new true keepAlive uploadLimit)).run backend.serve state).1
    ((identity.deletion (.new true keepAlive uploadLimit)).run backend.serve state).2
  /-- Indexing leaves alone what is written for other things. -/
  indexes : ∀ (call : IndexCall) (index : String) (document : Document),
    (∀ entity ∈ call.entities, ¬ entity.identity.Owns index document) →
      (document ∈ backend.documents
          ((call.task keepAlive uploadLimit).run backend.serve state).2 index ↔
        document ∈ backend.documents state index)

/-- After any calls of the indexers, whether they succeeded or not, enumerations, deletions and
indexing agree on what documents are written for. -/
theorem identities_agree (exact : backend.Exact) {state : σ} (arises : Arises backend state)
    (keepAlive : String) (uploadLimit : Nat) :
    IdentityAgreement backend state keepAlive uploadLimit := by
  have orderly := arises.orderly exact
  exact {
    materials := enumerates_integers exact orderly keepAlive (fun _ => rfl) (fun _ => rfl)
      fun _ => rfl
    courses := enumerates_integers exact orderly keepAlive (fun _ => rfl) (fun _ => rfl)
      fun _ => rfl
    sessions := enumerates_integers exact orderly keepAlive (fun _ => rfl) (fun _ => rfl)
      fun _ => rfl
    descriptors := enumerates_descriptors exact orderly keepAlive
    deletes := removes_deletion exact orderly keepAlive uploadLimit
    indexes := fun call _ _ other =>
      mem_documents_index_iff exact keepAlive uploadLimit call other }

end Calls

namespace Identity.Sample

open IndexCall.Sample

noncomputable def engine : Backend Memory := Memory.backend fun _ => .ok none

/-- The engine once two courses have been indexed. -/
noncomputable def stocked : Memory :=
  (((Change.index pair).task "1m" 1000).run engine.serve (.blank .epoch)).2

theorem arises_stocked : Arises engine stocked := by
  have nothing : Arises engine (.blank .epoch) := .empty fun _ => rfl
  have fits : (Change.index pair).Fits := by
    simp [Change.Fits, pair, mirrored, IndexCall.entities, Entity.Fits, Json.isSigned64]
  exact nothing.change fits "1m" 1000

theorem names_stocked : ∀ composite ∈ mirrored, ∀ session ∈ composite.sessions,
    ∃ document ∈ engine.documents stocked CurriculumIndexer.indexName,
      (Identity.session session.id).Names document := by
  intro composite inside session among
  have fits : ∀ composite ∈ mirrored, Json.isSigned64 composite.course.id = true := by decide
  have fresh : ((mirrored.flatMap (·.documents)).map (·.id)).Nodup ∧ ∀ composite ∈ mirrored,
      ¬ Catalog.Occurs engine (.blank .epoch) CurriculumIndexer.indexName
        CurriculumIndexer.courseIdField (some (CurriculumIndexer.ingestTimeField, .epoch))
          (.integer composite.course.id) := by
    refine ⟨?_, fun composite _ => ?_⟩
    · simp [mirrored, CompositeCourse.documents, CompositeCourse.documentId_inj]
    · rintro ⟨document, member, _⟩
      have nothing : engine.documents (.blank .epoch) CurriculumIndexer.indexName = [] := rfl
      rw [nothing] at member
      exact absurd member List.not_mem_nil
  have exact : engine.Exact := Memory.exact_backend _
  have enabled : (CurriculumIndexer.new true "1m").catalog.enabled = true := rfl
  have ends := (CurriculumIndexer.index_ensures exact (.new true "1m") enabled fits .epoch
    (.blank .epoch)).run engine.sameDocuments_refl
  change HandlingEnds engine _ _ _ _ stocked at ends
  have applied := ends.applied fresh (.inr (Memory.neverFails_backend _))
  have lasting := applied.written CurriculumIndexer.indexName _ rfl (composite.document session)
    (List.mem_flatMap.mpr ⟨composite, inside, List.mem_map_of_mem among⟩)
  obtain ⟨fields, present, _⟩ := Option.map_eq_some_iff.mp lasting
  rw [composite.id_document session] at present
  exact ⟨_, Backend.mem_documents_of_stored exact present, composite.course.id, rfl⟩

/-- Once two courses have been indexed, enumerations and deletions find the documents of all their
sessions. -/
theorem identities_agree_on_stocked :
    engine.Exact ∧ Arises engine stocked ∧
      (∀ composite ∈ mirrored, ∀ session ∈ composite.sessions,
        ∃ document ∈ engine.documents stocked CurriculumIndexer.indexName,
          (Identity.session session.id).Names document) ∧
      IdentityAgreement engine stocked "1m" 1000 := by
  have exact : engine.Exact := Memory.exact_backend _
  exact ⟨exact, arises_stocked, names_stocked, identities_agree exact arises_stocked "1m" 1000⟩

end Identity.Sample

end LearningIndex
