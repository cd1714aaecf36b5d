import LearningIndex.Proofs.Handling.Sending
import Mathlib.Logic.Function.Basic

/-!
# How the documents of a call are named

The id of a document tells which piece of which material, which session of which course, or which
descriptor it is about, and the document repeats it in a field.  A call sends documents of different
entities, and different ones of each, so no two operations of its bulk request have the same id.
-/

namespace LearningIndex

/-- The document has its id in the field for it. -/
def Document.IsSelfNamed (document : Document) : Prop :=
  document.get? Document.idField = some (.string document.id)

theorem LearningMaterialIndexer.isSelfNamed_chunkDocument (material : LearningMaterial)
    (ordinal : Nat) (chunk : ByteString) :
    (chunkDocument material ordinal chunk).IsSelfNamed := by
  rw [Document.IsSelfNamed, id_chunkDocument, chunkDocument, Document.get?_setAll_of_notMem]
  · exact Document.get?_new _
  · simp [Document.idField, idField]

theorem CompositeCourse.isSelfNamed_document (composite : CompositeCourse) (session : Session) :
    (composite.document session).IsSelfNamed := by
  rw [Document.IsSelfNamed, id_document, document, Document.get?_setAll_of_notMem,
    Document.get?_setAll_of_notMem]
  · exact Document.get?_new _
  · simp [Document.idField, Course.documentFields]
  · simp [Document.idField, Session.documentFields]

theorem MeshDescriptor.isSelfNamed_document (descriptor : MeshDescriptor) (time : String) :
    (descriptor.document time).IsSelfNamed := by
  rw [Document.IsSelfNamed, id_document]
  exact get?_document descriptor time

namespace Entity

variable {indexer : LearningMaterialIndexer} {time : String}

theorem isSelfNamed_of_mem_documents {text : ByteString} {entity : Entity} {document : Document}
    (member : document ∈ entity.documents indexer time text) : document.IsSelfNamed := by
  cases entity with
  | learningMaterial material =>
      obtain ⟨ordinal, chunk, rfl⟩ := LearningMaterialIndexer.mem_documents member
      exact LearningMaterialIndexer.isSelfNamed_chunkDocument material ordinal chunk
  | course composite =>
      obtain ⟨session, _, rfl⟩ := List.mem_map.mp member
      exact composite.isSelfNamed_document session
  | meshDescriptor descriptor =>
      obtain rfl := List.mem_singleton.mp member
      exact descriptor.isSelfNamed_document time

def HasDistinctSessions : Entity → Prop
  | course composite => (composite.sessions.map (·.id)).Nodup
  | learningMaterial _ | meshDescriptor _ => True

theorem nodup_map_id_documents {entity : Entity} (distinct : entity.HasDistinctSessions)
    (text : ByteString) : ((entity.documents indexer time text).map (·.id)).Nodup := by
  cases entity with
  | learningMaterial material =>
      exact LearningMaterialIndexer.nodup_documents indexer material text
  | course composite =>
      have named : composite.documents.map (·.id) =
          (composite.sessions.map (·.id)).map (CompositeCourse.documentId composite.course.id) := by
        simp [CompositeCourse.documents]
      change (composite.documents.map (·.id)).Nodup
      rw [named]
      exact distinct.map fun _ _ same => (CompositeCourse.documentId_inj.mp same).2
  | meshDescriptor descriptor => exact List.nodup_singleton _

/-- Entities of one kind with a document id in common are the same, as far as their ids go. -/
theorem key_eq_of_id_eq {entity other : Entity} (alike : entity.kind = other.kind)
    {text text' : ByteString} {document document' : Document}
    (member : document ∈ entity.documents indexer time text)
    (member' : document' ∈ other.documents indexer time text') (same : document.id = document'.id) :
    entity.key = other.key := by
  cases entity <;> cases other <;> try cases alike
  case learningMaterial.learningMaterial material material' =>
    obtain ⟨ordinal, chunk, rfl⟩ := LearningMaterialIndexer.mem_documents member
    obtain ⟨ordinal', chunk', rfl⟩ := LearningMaterialIndexer.mem_documents member'
    simp only [LearningMaterialIndexer.id_chunkDocument,
      LearningMaterialIndexer.documentId_inj] at same
    exact congrArg Json.integer same.2
  case course.course composite composite' =>
    obtain ⟨session, _, rfl⟩ := List.mem_map.mp member
    obtain ⟨session', _, rfl⟩ := List.mem_map.mp member'
    simp only [CompositeCourse.id_document, CompositeCourse.documentId_inj] at same
    exact congrArg Json.integer same.1
  case meshDescriptor.meshDescriptor descriptor descriptor' =>
    obtain rfl := List.mem_singleton.mp member
    obtain rfl := List.mem_singleton.mp member'
    simp only [MeshDescriptor.id_document] at same
    exact congrArg Json.string same

theorem documentsInTurn_cons (entity : Entity) (rest : List Entity)
    (found : List (Option ByteString)) :
    ∃ text later, documentsInTurn indexer time (entity :: rest) found =
      entity.documents indexer time text ++ documentsInTurn indexer time rest later := by
  rw [documentsInTurn]
  split
  · exact ⟨_, _, rfl⟩
  · exact ⟨_, _, rfl⟩

theorem exists_of_mem_documentsInTurn {entities : List Entity} {found : List (Option ByteString)}
    {document : Document} (member : document ∈ documentsInTurn indexer time entities found) :
    ∃ entity ∈ entities, ∃ text, document ∈ entity.documents indexer time text := by
  induction entities generalizing found with
  | nil => exact absurd member List.not_mem_nil
  | cons entity rest ih =>
      obtain ⟨text, later, split⟩ := documentsInTurn_cons entity rest found
      rw [split] at member
      rcases List.mem_append.mp member with own | other
      · exact ⟨entity, List.mem_cons_self, text, own⟩
      · obtain ⟨source, inside, text, own⟩ := ih other
        exact ⟨source, List.mem_cons_of_mem entity inside, text, own⟩

/-- Entities of one kind with different ids have documents with different ids. -/
theorem nodup_map_id_documentsInTurn {kind : EntityKind} {entities : List Entity}
    (alike : ∀ entity ∈ entities, entity.kind = kind) (distinct : (entities.map (·.key)).Nodup)
    (sessions : ∀ entity ∈ entities, entity.HasDistinctSessions)
    (found : List (Option ByteString)) :
    ((documentsInTurn indexer time entities found).map (·.id)).Nodup := by
  induction entities generalizing found with
  | nil => exact List.nodup_nil
  | cons entity rest ih =>
      obtain ⟨first, alike⟩ := List.forall_mem_cons.mp alike
      obtain ⟨own, sessions⟩ := List.forall_mem_cons.mp sessions
      obtain ⟨absent, distinct⟩ := List.nodup_cons.mp distinct
      obtain ⟨text, later, split⟩ := documentsInTurn_cons entity rest found
      rw [split, List.map_append, List.nodup_append]
      refine ⟨nodup_map_id_documents own text, ih alike distinct sessions later, ?_⟩
      rintro _ one _ other rfl
      obtain ⟨document, member, rfl⟩ := List.mem_map.mp one
      obtain ⟨document', member', same⟩ := List.mem_map.mp other
      obtain ⟨source, inside, text', among⟩ := exists_of_mem_documentsInTurn member'
      refine absent (List.mem_map.mpr ⟨source, inside, ?_⟩)
      exact key_eq_of_id_eq ((alike source inside).trans first.symm) among member same

end Entity

namespace IndexCall

variable {enabled : Bool} {keepAlive : String} {uploadLimit : Nat} {call : IndexCall}
variable {trace : List (Exchange services)} {outcome : Except IndexingError Bool}

theorem proceeds_of_mem (run : (call.perform enabled keepAlive uploadLimit).Yields trace outcome)
    {exchange : Exchange services} (asked : exchange ∈ trace) :
    call.IsUniform ∧ call.Proceeds (.new enabled keepAlive uploadLimit) trace outcome := by
  have refused {error : IndexingError}
      (failed : call.perform enabled keepAlive uploadLimit = .done (.error error)) : False := by
    rw [failed] at run
    obtain ⟨rfl, _⟩ := Program.yields_done_iff.mp run
    exact List.not_mem_nil asked
  cases enabled with
  | false =>
      obtain ⟨error, failed⟩ := call.exists_error_of_disabled keepAlive uploadLimit
      exact (refused failed).elim
  | true =>
      rw [perform_true] at run refused
      by_cases uniform : call.IsUniform
      · exact ⟨uniform, proceeds_of_yields uniform run⟩
      · obtain ⟨error, failed⟩ := exists_error keepAlive uploadLimit uniform
        exact (refused failed).elim

/-- What a call writes is the documents of some of its entities, which are all accepted. -/
theorem exists_documents_of_isWrite
    (run : (call.perform enabled keepAlive uploadLimit).Yields trace outcome)
    {exchange : Exchange services} (asked : exchange ∈ trace) (write : exchange.request.IsWrite) :
    call.IsUniform ∧ ∃ entities time found, entities.Sublist call.entities ∧
      exchange.request = .engine (.bulk ((Entity.documentsInTurn
        (.new enabled keepAlive uploadLimit) time entities found).map
          (.index call.kind.home))) := by
  obtain ⟨uniform, proceeds⟩ := proceeds_of_mem run asked
  refine ⟨uniform, ?_⟩
  cases proceeds with
  | stopped collects => exact absurd write (collects.not_isWrite _ asked)
  | idle collects => exact absurd write (collects.not_isWrite _ asked)
  | sent collects filled reply =>
      obtain ⟨_, now, _, rfl⟩ := collects.built _ rfl
      rcases List.mem_append.mp asked with early | final
      · exact absurd write (collects.not_isWrite _ early)
      · obtain rfl := List.mem_singleton.mp final
        exact ⟨_, _, _, List.filter_sublist, rfl⟩

end IndexCall

/-- The id of a document names one source: a piece of a material, or a session of a course.  What a
call sends carries its ids in its documents, and no two operations of one request have the same. -/
theorem ids_name_one_source :
    Function.Injective2 CompositeCourse.documentId ∧
      Function.Injective2 LearningMaterialIndexer.documentId ∧
      (∀ (indexer : LearningMaterialIndexer) (time : String) (text : ByteString) (entity : Entity),
        ∀ document ∈ entity.documents indexer time text, document.IsSelfNamed) ∧
      ∀ (enabled : Bool) (keepAlive : String) (uploadLimit : Nat) (call : IndexCall)
        (trace : List (Exchange services)) (outcome : Except IndexingError Bool),
        (call.perform enabled keepAlive uploadLimit).Yields trace outcome →
          ∀ (operations : List BulkOperation) (reply : Except EngineError BulkReply),
            ⟨.engine (.bulk operations), reply⟩ ∈ trace →
              (∀ operation ∈ operations, Fields.get? Document.idField operation.document =
                some (.string operation.action.id)) ∧
              ((call.entities.map (·.key)).Nodup →
                (∀ entity ∈ call.entities, entity.HasDistinctSessions) →
                  (operations.map (·.action.id)).Nodup) := by
  refine ⟨fun _ _ _ _ same => CompositeCourse.documentId_inj.mp same,
    fun _ _ _ _ same => LearningMaterialIndexer.documentId_inj.mp same,
    fun _ _ _ _ _ member => Entity.isSelfNamed_of_mem_documents member, ?_⟩
  intro enabled keepAlive uploadLimit call trace outcome run operations reply sent
  obtain ⟨uniform, entities, time, found, within, same⟩ :=
    IndexCall.exists_documents_of_isWrite run sent trivial
  obtain rfl := EngineCall.bulk.inj (Service.Request.engine.inj same)
  refine ⟨List.forall_mem_map.mpr fun document member => ?_, fun distinct sessions => ?_⟩
  · obtain ⟨_, _, _, own⟩ := Entity.exists_of_mem_documentsInTurn member
    exact Entity.isSelfNamed_of_mem_documents own
  · have alike (entity : Entity) (inside : entity ∈ entities) : entity.kind = call.kind :=
      uniform entity (within.subset inside)
    rw [List.map_map]
    exact Entity.nodup_map_id_documentsInTurn alike (distinct.sublist (within.map _))
      (fun entity inside => sessions entity (within.subset inside)) found

namespace IndexCall.Sample

/-- Two courses, each with a session whose id is the one of the other course. -/
def mirrored : List CompositeCourse :=
  [⟨{ id := 1 }, [{ id := -1 }, { id := 11 }]⟩, ⟨{ id := -1 }, [{ id := 1 }, { id := 11 }]⟩]

def pair : IndexCall := .courses (mirrored.map .course) .epoch

def writes : List BulkOperation :=
  (mirrored.flatMap (·.documents)).map (.index CurriculumIndexer.indexName)

/-- What happens when the index holds neither course. -/
def smoothly : List (Exchange services) :=
  [⟨(CurriculumIndexer.new true "1m").catalog.portionRequest CurriculumIndexer.courseIdField
        (some (CurriculumIndexer.ingestTimeField, .epoch)) [(1 : Int), -1],
      .ok (Memory.buckets CurriculumIndexer.courseIdField [])⟩,
    ⟨.engine (.bulk writes), .ok ⟨3, false, []⟩⟩]

theorem yields_smoothly : (pair.perform true "1m" 1000).Yields smoothly (.ok true) := by
  have one : batches Query.answerLimit [(1 : Int), -1] = [[1, -1]] := by
    simp [batches, Query.answerLimit]
  change ((Catalog.skipSet (CurriculumIndexer.new true "1m").catalog
    CurriculumIndexer.courseIdField [(1 : Int), -1]
      (some (CurriculumIndexer.ingestTimeField, .epoch))).andThen _ |>.andThen _).Yields _ _
  rw [Catalog.skipSet, one]
  refine Program.yields_ask_iff.mpr ⟨.ok _, _, rfl, ?_⟩
  exact Program.yields_ask_iff.mpr ⟨.ok ⟨3, false, []⟩, [], rfl, .done _⟩

/-- The four documents of the two courses have different ids. -/
theorem ids_of_smoothly :
    (pair.perform true "1m" 1000).Yields smoothly (.ok true) ∧
      (writes.map (·.action.id)).Nodup := by
  obtain ⟨_, _, _, named⟩ := ids_name_one_source
  have sent : (⟨.engine (.bulk writes), .ok ⟨3, false, []⟩⟩ : Exchange services) ∈ smoothly :=
    List.mem_cons_of_mem _ (List.mem_singleton_self _)
  obtain ⟨_, apart⟩ := named true "1m" 1000 pair smoothly (.ok true) yields_smoothly writes _ sent
  refine ⟨yields_smoothly, apart ?_ ?_⟩
  · simp [pair, mirrored, entities, Entity.key]
  · simp [pair, mirrored, entities, Entity.HasDistinctSessions]

end IndexCall.Sample

end LearningIndex
