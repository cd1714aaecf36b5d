import LearningIndex.Proofs.Handling
import LearningIndex.Proofs.Reconciliation.Dispatch

/-!
# The messages of a run do not meet

The messages of one run are about different indexes, or they ask for different entities, or one of
them asks for entities that the repository knows and the other one removes something that it does
not know.  So none of them undoes what another one does, and none makes another one pass over an
entity.
-/

namespace LearningIndex

open Calendar (Instant)

namespace Reconciliation

/-- The first message keeps its effect and its freshness whether the second one is handled before it
or after it. -/
structure Bears (effect : IndexMessage → Effect) (first second : IndexMessage) : Prop where
  /-- The second message does not undo what the first one does. -/
  spared : (effect first).Spares (effect second)
  /-- The second message brings nothing that makes the first one pass over an entity. -/
  unanswered : ∀ query ∈ first.skipQuery?, ∀ value ∈ query.values,
    ¬ (effect second).Brings query.index fun fields => fields.get? query.field = some value

/-- Neither message matters to the other one. -/
def Compatible (effect : IndexMessage → Effect) (first second : IndexMessage) : Prop :=
  Bears effect first second ∧ Bears effect second first

theorem Compatible.symm {effect : IndexMessage → Effect} {first second : IndexMessage}
    (apart : Compatible effect first second) : Compatible effect second first :=
  ⟨apart.2, apart.1⟩

theorem Compatible.independent {effect : IndexMessage → Effect} {first second : IndexMessage}
    (apart : Compatible effect first second) : (effect first).Independent (effect second) :=
  ⟨apart.1.spared, apart.2.spared⟩

/-- A message that is fresh at first is fresh when the effects of messages that do not matter to it
have taken place. -/
theorem isFresh_of_settled {σ : Type} {backend : Backend σ} (exact : backend.Exact)
    {effect : IndexMessage → Effect} {initial state : σ} {messages : List IndexMessage}
    {message : IndexMessage}
    (settled : ∀ query ∈ message.skipQuery?,
      Effect.Settled backend query.index initial (messages.map effect) state)
    (unanswered : ∀ other ∈ messages, ∀ query ∈ message.skipQuery?, ∀ value ∈ query.values,
      ¬ (effect other).Brings query.index fun fields => fields.get? query.field = some value)
    (fresh : message.IsFresh backend initial) : message.IsFresh backend state := by
  rintro query asked value inside ⟨document, present, valued, recent⟩
  have stored := (Backend.mem_documents_iff exact).mp present
  by_cases written : ∃ change ∈ messages.map effect, change.Writes query.index document.id
  · obtain ⟨change, member, writes⟩ := written
    obtain ⟨other, handled, rfl⟩ := List.mem_map.mp member
    cases change : effect other with
    | remove _ _ _ =>
        rw [change] at writes
        exact writes.elim
    | write name documents =>
        rw [change] at writes member
        obtain ⟨rfl, source, among, same⟩ := writes
        have lasting := (settled query asked).written documents member source among
        rw [same, Backend.lasting, stored, Option.map_some] at lasting
        have timeless : query.field ≠ Fields.timeField :=
          (IndexMessage.skipQuery?_about asked).2 ▸ message.keyField_ne_timeField
        refine unanswered other handled query asked value inside ?_
        rw [change]
        exact ⟨rfl, source, among, (Fields.get?_eq_of_lasting_eq timeless
          (Option.some.inj lasting)).symm.trans valued⟩
  · have unwritten : ∀ change ∈ messages.map effect, ¬ change.Writes query.index document.id :=
      fun change member writes => written ⟨change, member, writes⟩
    obtain ⟨before, _⟩ := (settled query asked).stored_of_unwritten unwritten stored
    exact fresh query asked value inside
      ⟨document, (Backend.mem_documents_iff exact).mpr before, valued, recent⟩

section Pairs

variable {effect : IndexMessage → Effect} {first second : IndexMessage}

theorem bears_of_remove {index field : String} {value : Json}
    (removes : effect first = .remove index field value) (unasked : first.skipQuery? = none) :
    Bears effect first second where
  spared := by
    rw [removes]
    rintro _ _ ⟨⟩
  unanswered := by simp [unasked]

theorem bears_of_writes {index : String} {documents others : List Document}
    (writes : effect first = .write index documents)
    (writes' : effect second = .write index others)
    (apart : ∀ document ∈ documents, ∀ other ∈ others, document.id ≠ other.id)
    (unanswered : ∀ query ∈ first.skipQuery?, ∀ value ∈ query.values, ∀ other ∈ others,
      other.get? query.field ≠ some value) : Bears effect first second where
  spared := by
    rw [writes, writes']
    rintro _ _ ⟨⟩ document member
    refine ⟨?_, fun _ _ => id⟩
    rintro ⟨_, other, inside, same⟩
    exact apart document member other inside same.symm
  unanswered := by
    intro query asked value inside
    rw [writes']
    rintro ⟨_, other, member, valued⟩
    exact unanswered query asked value inside other member valued

theorem bears_of_write_of_remove {index field : String} {value : Json}
    {documents : List Document} (writes : effect first = .write index documents)
    (removes : effect second = .remove index field value) (timeless : field ≠ Fields.timeField)
    (spared : ∀ document ∈ documents, document.get? field ≠ some value) :
    Bears effect first second where
  spared := by
    rw [writes, removes]
    rintro _ _ ⟨⟩ document member
    refine ⟨id, fun fields same removal => spared document member ?_⟩
    exact (Fields.get?_eq_of_lasting_eq timeless same).symm.trans removal.2
  unanswered := by
    rw [removes]
    exact fun _ _ _ _ => id

theorem bears_of_index_ne (apart : (effect first).index ≠ (effect second).index)
    (asked : ∀ query ∈ first.skipQuery?, query.index = (effect first).index) :
    Bears effect first second where
  spared := by
    intro index documents writes document member
    have own : (effect first).index = index := by rw [writes, Effect.index]
    rw [own] at apart
    exact ⟨fun written => apart (Effect.index_eq_of_writes written).symm,
      fun fields _ removed => apart (Effect.index_eq_of_removes removed).symm⟩
  unanswered := by
    intro query member value _ brought
    exact apart ((asked query member).symm.trans (Effect.index_eq_of_brings brought).symm)

end Pairs

section Plan

variable {snapshot : Snapshot} {indexer : LearningMaterialIndexer}
variable {files : String → Except IndexingError (Option ByteString)}

theorem index_effect (message : IndexMessage) :
    (message.effect snapshot indexer files).index = message.target := by
  cases message <;> rfl

/-- Messages about different indexes do not matter to each other. -/
theorem compatible_of_target_ne {first second : IndexMessage}
    (apart : first.target ≠ second.target) :
    Compatible (IndexMessage.effect snapshot indexer files) first second :=
  ⟨bears_of_index_ne (by simpa only [index_effect] using apart)
      fun _ asked => (IndexMessage.skipQuery?_about asked).1.trans (index_effect first).symm,
    bears_of_index_ne (by simpa only [index_effect] using apart.symm)
      fun _ asked => (IndexMessage.skipQuery?_about asked).1.trans (index_effect second).symm⟩

theorem exists_isPieceOf {ids : List Int} {document : Document}
    (member : document ∈ (LearningMaterialIndexer.documentsWith files indexer
      (snapshot.findLearningMaterials ids)).toOption.getD []) :
    ∃ id ∈ ids, LearningMaterialIndexer.IsPieceOf document id := by
  cases built : LearningMaterialIndexer.documentsWith files indexer
      (snapshot.findLearningMaterials ids) with
  | error error => simp [built, Except.toOption] at member
  | ok documents =>
      rw [built] at member
      obtain ⟨material, inside, ordinal, chunk, rfl⟩ :=
        LearningMaterialIndexer.mem_documentsWith built member
      have asked : material.id ∈ ids := by
        simpa using (List.mem_filter.mp inside).2
      exact ⟨material.id, asked, LearningMaterialIndexer.isPieceOf_chunkDocument material ordinal _⟩

theorem exists_isAbout {ids : List Int} {document : Document}
    (member : document ∈ snapshot.courseDocuments ids) :
    ∃ session course, (session, course) ∈ snapshot.sessionCourseIds ∧ course ∈ ids ∧
      CompositeCourse.IsAbout document course session := by
  obtain ⟨composite, inside, written⟩ := List.mem_flatMap.mp member
  obtain ⟨session, among, rfl⟩ := List.mem_map.mp written
  obtain ⟨known, asked⟩ := List.mem_filter.mp inside
  refine ⟨session.id, composite.course.id, ?_, by simpa using asked,
    CompositeCourse.isAbout_document composite session⟩
  exact List.mem_flatMap.mpr ⟨composite, known, List.mem_map_of_mem among⟩

theorem exists_isEntryOf {ids : List String} {document : Document}
    (member : document ∈ snapshot.descriptorDocuments ids) :
    ∃ id ∈ ids, MeshDescriptor.IsEntryOf document id := by
  obtain ⟨descriptor, inside, rfl⟩ := List.mem_map.mp member
  refine ⟨descriptor.id, by simpa using (List.mem_filter.mp inside).2,
    MeshDescriptor.isEntryOf_document descriptor ""⟩

theorem bears_materialRequests {ids others : List Int} (disjoint : ids.Disjoint others)
    (force force' : Bool) :
    Bears (IndexMessage.effect snapshot indexer files) (.indexLearningMaterials ids force)
      (.indexLearningMaterials others force') := by
  refine bears_of_writes rfl rfl ?_ ?_
  · intro document member other member' same
    obtain ⟨id, inside, piece⟩ := exists_isPieceOf member
    obtain ⟨id', inside', piece'⟩ := exists_isPieceOf member'
    exact disjoint inside (piece.eq_of_id_eq piece' same ▸ inside')
  · intro query asked value inside other member valued
    cases force with
    | true => simp [IndexMessage.skipQuery?] at asked
    | false =>
        obtain rfl := Option.mem_some_iff.mp asked
        obtain ⟨id, within, rfl⟩ := List.mem_map.mp inside
        obtain ⟨id', inside', piece'⟩ := exists_isPieceOf member
        exact disjoint within (Document.integer_unique piece'.field valued ▸ inside')

theorem bears_courseRequests {ids others : List Int} (disjoint : ids.Disjoint others)
    (stamp stamp' : Instant) :
    Bears (IndexMessage.effect snapshot indexer files) (.indexCourses ids stamp)
      (.indexCourses others stamp') := by
  refine bears_of_writes rfl rfl ?_ ?_
  · intro document member other member' same
    obtain ⟨session, course, _, inside, about⟩ := exists_isAbout member
    obtain ⟨session', course', _, inside', about'⟩ := exists_isAbout member'
    exact disjoint inside ((about.eq_of_id_eq about' same).1 ▸ inside')
  · intro query asked value inside other member valued
    obtain rfl := Option.mem_some_iff.mp asked
    obtain ⟨id, within, rfl⟩ := List.mem_map.mp inside
    obtain ⟨session', course', _, inside', about'⟩ := exists_isAbout member
    exact disjoint within (Document.integer_unique about'.course valued ▸ inside')

theorem bears_descriptorRequests {ids others : List String} (disjoint : ids.Disjoint others)
    (stamp stamp' : Instant) :
    Bears (IndexMessage.effect snapshot indexer files) (.indexMeshDescriptors ids stamp)
      (.indexMeshDescriptors others stamp') := by
  refine bears_of_writes rfl rfl ?_ ?_
  · intro document member other member' same
    obtain ⟨id, inside, entry⟩ := exists_isEntryOf member
    obtain ⟨id', inside', entry'⟩ := exists_isEntryOf member'
    exact disjoint inside ((entry.named.symm.trans (same.trans entry'.named)) ▸ inside')
  · intro query asked value inside other member valued
    obtain rfl := Option.mem_some_iff.mp asked
    obtain ⟨id, within, rfl⟩ := List.mem_map.mp inside
    obtain ⟨id', inside', entry'⟩ := exists_isEntryOf member
    exact disjoint within (Document.string_unique entry'.field valued ▸ inside')

theorem compatible_materialRemoval {ids : List Int} {id : Int} (absent : id ∉ ids) (force : Bool) :
    Compatible (IndexMessage.effect snapshot indexer files) (.indexLearningMaterials ids force)
      (.deleteLearningMaterial id) := by
  refine ⟨bears_of_write_of_remove rfl rfl (by decide) ?_, bears_of_remove rfl rfl⟩
  intro document member valued
  obtain ⟨other, inside, piece⟩ := exists_isPieceOf member
  exact absent (Document.integer_unique piece.field valued ▸ inside)

theorem compatible_courseRemoval {ids : List Int} {id : Int} (absent : id ∉ ids)
    (stamp : Instant) :
    Compatible (IndexMessage.effect snapshot indexer files) (.indexCourses ids stamp)
      (.deleteCourse id) := by
  refine ⟨bears_of_write_of_remove rfl rfl (by decide) ?_, bears_of_remove rfl rfl⟩
  intro document member valued
  obtain ⟨session, course, _, inside, about⟩ := exists_isAbout member
  exact absent (Document.integer_unique about.course valued ▸ inside)

theorem compatible_sessionRemoval {id : Int} (absent : id ∉ sessionIds snapshot) (ids : List Int)
    (stamp : Instant) :
    Compatible (IndexMessage.effect snapshot indexer files) (.indexCourses ids stamp)
      (.deleteSession id) := by
  refine ⟨bears_of_write_of_remove rfl rfl (by decide) ?_, bears_of_remove rfl rfl⟩
  intro document member valued
  obtain ⟨session, course, known, _, about⟩ := exists_isAbout member
  exact absent (List.mem_map.mpr
    ⟨(session, course), known, Document.integer_unique about.session valued⟩)

theorem compatible_descriptorRemoval {ids : List String} {id : String} (absent : id ∉ ids)
    (stamp : Instant) :
    Compatible (IndexMessage.effect snapshot indexer files) (.indexMeshDescriptors ids stamp)
      (.deleteMeshDescriptor id) := by
  refine ⟨bears_of_write_of_remove rfl rfl (by decide) ?_, bears_of_remove rfl rfl⟩
  intro document member valued
  obtain ⟨other, inside, entry⟩ := exists_isEntryOf member
  exact absent (Document.string_unique entry.field valued ▸ inside)

theorem notMem_absentFrom_of_mem_absentFrom {κ : Type} [DecidableEq κ] {known indexed : List κ}
    {id : κ} (stale : id ∈ absentFrom known indexed) : id ∉ absentFrom indexed known := by
  simp only [absentFrom_eq_filter, List.mem_filter, decide_eq_true_eq] at stale ⊢
  exact fun missing => stale.2 missing.1

theorem mem_courseIds_of_mem_sessionCourseIds {session course : Int}
    (member : (session, course) ∈ snapshot.sessionCourseIds) : course ∈ snapshot.courseIds := by
  obtain ⟨composite, inside, among⟩ := List.mem_flatMap.mp member
  obtain ⟨_, _, same⟩ := List.mem_map.mp among
  exact List.mem_map.mpr ⟨composite, inside, (Prod.mk.inj same).2⟩

/-- The courses that are asked for are the missing ones and those with a missing session. -/
theorem mem_requestedCourses_iff (distinct : snapshot.DistinctIn CurriculumIndexer.indexName)
    {courses sessions : List Int} {course : Int} :
    course ∈ requestedCourses snapshot courses sessions ↔
      (course ∈ snapshot.courseIds ∧ course ∉ courses) ∨
        ∃ session, (session, course) ∈ snapshot.sessionCourseIds ∧ session ∉ sessions := by
  simp [requestedCourses_eq distinct, ownersOfMissing, List.mem_eraseDups]

theorem mem_courseIds_of_mem_requestedCourses
    (distinct : snapshot.DistinctIn CurriculumIndexer.indexName) {courses sessions : List Int}
    {course : Int} (requested : course ∈ requestedCourses snapshot courses sessions) :
    course ∈ snapshot.courseIds := by
  rcases (mem_requestedCourses_iff distinct).mp requested with ⟨known, _⟩ | ⟨session, owned, _⟩
  · exact known
  · exact mem_courseIds_of_mem_sessionCourseIds owned

theorem target_of_mem_materialPlan {indexed : List Int} {message : IndexMessage}
    (member : message ∈ materialPlan snapshot indexed) :
    message.target = LearningMaterialIndexer.indexName := by
  rcases List.mem_append.mp member with request | removal
  · obtain ⟨ids, _, rfl⟩ := List.mem_map.mp request
    rfl
  · obtain ⟨id, _, rfl⟩ := List.mem_map.mp removal
    rfl

theorem target_of_mem_coursePlan {stamp : Instant} {courses sessions : List Int}
    {message : IndexMessage} (member : message ∈ coursePlan snapshot stamp courses sessions) :
    message.target = CurriculumIndexer.indexName := by
  rcases List.mem_append.mp member with earlier | removal
  · rcases List.mem_append.mp earlier with request | removal
    · obtain ⟨ids, _, rfl⟩ := List.mem_map.mp request
      rfl
    · obtain ⟨id, _, rfl⟩ := List.mem_map.mp removal
      rfl
  · obtain ⟨id, _, rfl⟩ := List.mem_map.mp removal
    rfl

theorem target_of_mem_descriptorPlan {stamp : Instant} {indexed : List String}
    {message : IndexMessage} (member : message ∈ descriptorPlan snapshot stamp indexed) :
    message.target = MeshIndexer.indexName := by
  rcases List.mem_append.mp member with request | removal
  · obtain ⟨ids, _, rfl⟩ := List.mem_map.mp request
    rfl
  · obtain ⟨id, _, rfl⟩ := List.mem_map.mp removal
    rfl

theorem target_ne_curriculum {indexed : List Int} {message : IndexMessage}
    (member : message ∈ materialPlan snapshot indexed) :
    message.target ≠ CurriculumIndexer.indexName := by
  rw [target_of_mem_materialPlan member]
  decide

theorem target_ne_mesh {stamp : Instant} {materials courses sessions : List Int}
    {message : IndexMessage} (member : message ∈ materialPlan snapshot materials ++
      coursePlan snapshot stamp courses sessions) : message.target ≠ MeshIndexer.indexName := by
  rcases List.mem_append.mp member with earlier | earlier
  · rw [target_of_mem_materialPlan earlier]
    decide
  · rw [target_of_mem_coursePlan earlier]
    decide

/-- The requests for some ids and the removals of others do not matter to each other, if those for
disjoint ids do not, nor a request and the removal of what it does not ask for, nor two removals. -/
theorem pairwise_requests_removals {κ : Type} {effect : IndexMessage → Effect}
    {request : List κ → IndexMessage} {removal : κ → IndexMessage} {missing stale : List κ}
    (distinct : missing.Nodup) (disjoint : ∀ id ∈ stale, id ∉ missing)
    (requests : ∀ ids others : List κ, ids.Disjoint others →
      Compatible effect (request ids) (request others))
    (mixed : ∀ ids id, id ∉ ids → Compatible effect (request ids) (removal id))
    (removals : ∀ id other, Compatible effect (removal id) (removal other)) :
    ((batches IndexMessage.maxIds missing).map request ++ stale.map removal).Pairwise
      (Compatible effect) := by
  rw [List.pairwise_append]
  refine ⟨?_, ?_, ?_⟩
  · exact List.pairwise_map.mpr ((pairwise_disjoint_batches distinct).imp (requests _ _))
  · exact List.pairwise_map.mpr (List.pairwise_of_forall removals)
  · intro _ first _ second
    obtain ⟨ids, portion, rfl⟩ := List.mem_map.mp first
    obtain ⟨id, gone, rfl⟩ := List.mem_map.mp second
    exact mixed ids id fun inside => disjoint id gone (mem_of_mem_batches portion inside)

theorem pairwise_materialPlan (distinct : (snapshot.learningMaterials.map (·.id)).Nodup)
    (indexed : List Int) :
    (materialPlan snapshot indexed).Pairwise
      (Compatible (IndexMessage.effect snapshot indexer files)) := by
  refine pairwise_requests_removals ?_ (fun id => notMem_absentFrom_of_mem_absentFrom)
    (fun ids others apart => ⟨bears_materialRequests apart _ _,
      bears_materialRequests (List.disjoint_symm apart) _ _⟩)
    (fun ids id absent => compatible_materialRemoval absent false)
    fun id other => ⟨bears_of_remove rfl rfl, bears_of_remove rfl rfl⟩
  rw [missingMaterials, absentFrom_eq_filter]
  exact (fileMaterials_nodup distinct).filter _

theorem pairwise_coursePlan (distinct : snapshot.DistinctIn CurriculumIndexer.indexName)
    (stamp : Instant) (courses sessions : List Int) :
    (coursePlan snapshot stamp courses sessions).Pairwise
      (Compatible (IndexMessage.effect snapshot indexer files)) := by
  rw [coursePlan, List.pairwise_append]
  refine ⟨?_, ?_, ?_⟩
  · refine pairwise_requests_removals ?_ ?_
      (fun ids others apart => ⟨bears_courseRequests apart _ _,
        bears_courseRequests (List.disjoint_symm apart) _ _⟩)
      (fun ids id absent => compatible_courseRemoval absent stamp)
      fun id other => ⟨bears_of_remove rfl rfl, bears_of_remove rfl rfl⟩
    · rw [requestedCourses_eq distinct]
      exact nodup_eraseDups _
    · intro id stale requested
      simp only [staleCourses, absentFrom_eq_filter, List.mem_filter, decide_eq_true_eq] at stale
      exact stale.2 (mem_courseIds_of_mem_requestedCourses distinct requested)
  · exact List.pairwise_map.mpr (List.pairwise_of_forall fun id other =>
      ⟨bears_of_remove rfl rfl, bears_of_remove rfl rfl⟩)
  · intro first member _ gone
    obtain ⟨id, stale, rfl⟩ := List.mem_map.mp gone
    rcases List.mem_append.mp member with request | removal
    · obtain ⟨ids, _, rfl⟩ := List.mem_map.mp request
      refine compatible_sessionRemoval ?_ ids stamp
      simp only [staleSessions, absentFrom_eq_filter, List.mem_filter] at stale
      simpa using stale.2
    · obtain ⟨course, _, rfl⟩ := List.mem_map.mp removal
      exact ⟨bears_of_remove rfl rfl, bears_of_remove rfl rfl⟩

theorem pairwise_descriptorPlan (distinct : snapshot.meshDescriptorIds.Nodup) (stamp : Instant)
    (indexed : List String) :
    (descriptorPlan snapshot stamp indexed).Pairwise
      (Compatible (IndexMessage.effect snapshot indexer files)) := by
  refine pairwise_requests_removals ?_ (fun id => notMem_absentFrom_of_mem_absentFrom)
    (fun ids others apart => ⟨bears_descriptorRequests apart _ _,
      bears_descriptorRequests (List.disjoint_symm apart) _ _⟩)
    (fun ids id absent => compatible_descriptorRemoval absent stamp)
    fun id other => ⟨bears_of_remove rfl rfl, bears_of_remove rfl rfl⟩
  rw [missingDescriptors, absentFrom_eq_filter]
  exact distinct.filter _

/-- Neither message matters to the other one if one of them is about the index. -/
def CompatibleIn (index : String) (effect : IndexMessage → Effect) (first second : IndexMessage) :
    Prop :=
  first.target = index ∨ second.target = index → Compatible effect first second

theorem CompatibleIn.symm {index : String} {effect : IndexMessage → Effect}
    {first second : IndexMessage} (apart : CompatibleIn index effect first second) :
    CompatibleIn index effect second first :=
  fun about => (apart about.symm).symm

/-- Messages about one index are compatible as far as it is the one that counts. -/
theorem pairwise_compatibleIn {index target : String} {effect : IndexMessage → Effect}
    {messages : List IndexMessage} (targets : ∀ message ∈ messages, message.target = target)
    (pairwise : index = target → messages.Pairwise (Compatible effect)) :
    messages.Pairwise (CompatibleIn index effect) := by
  by_cases own : index = target
  · refine (pairwise own).imp ?_
    exact fun apart _ => apart
  · refine List.pairwise_of_forall_mem_list ?_
    intro first member second member' about
    rw [targets first member, targets second member', or_self] at about
    exact absurd about.symm own

theorem pairwise_compatibleIn_append {index : String} {messages others : List IndexMessage}
    (pairwise : messages.Pairwise (CompatibleIn index (IndexMessage.effect snapshot indexer files)))
    (pairwise' : others.Pairwise (CompatibleIn index (IndexMessage.effect snapshot indexer files)))
    (apart : ∀ message ∈ messages, ∀ other ∈ others, message.target ≠ other.target) :
    (messages ++ others).Pairwise
      (CompatibleIn index (IndexMessage.effect snapshot indexer files)) :=
  List.pairwise_append.mpr ⟨pairwise, pairwise', fun message member other member' _ =>
    compatible_of_target_ne (apart message member other member')⟩

/-- The messages of one run about an index do not matter to each other. -/
theorem pairwise_compatible_plan {index : String} (distinct : snapshot.DistinctIn index)
    (stamp : Instant) (found : Inventory) :
    (plan snapshot stamp found).Pairwise
      (CompatibleIn index (IndexMessage.effect snapshot indexer files)) := by
  have materials : (materialPlan snapshot found.materials).Pairwise
      (CompatibleIn index (IndexMessage.effect snapshot indexer files)) :=
    pairwise_compatibleIn (fun _ => target_of_mem_materialPlan) fun own =>
      pairwise_materialPlan (distinct.materials own) _
  have courses : (coursePlan snapshot stamp found.courses found.sessions).Pairwise
      (CompatibleIn index (IndexMessage.effect snapshot indexer files)) :=
    pairwise_compatibleIn (fun _ => target_of_mem_coursePlan) fun own =>
      pairwise_coursePlan (own ▸ distinct) stamp _ _
  have descriptors : (descriptorPlan snapshot stamp found.descriptors).Pairwise
      (CompatibleIn index (IndexMessage.effect snapshot indexer files)) :=
    pairwise_compatibleIn (fun _ => target_of_mem_descriptorPlan) fun own =>
      pairwise_descriptorPlan (distinct.descriptors own) stamp _
  refine pairwise_compatibleIn_append (pairwise_compatibleIn_append materials courses ?_)
    descriptors ?_
  · intro first member second member'
    rw [target_of_mem_coursePlan member']
    exact target_ne_curriculum member
  · intro first member second member'
    rw [target_of_mem_descriptorPlan member']
    exact target_ne_mesh member

end Plan

end Reconciliation
end LearningIndex
