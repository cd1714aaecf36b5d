import LearningIndex.Proofs.Handling.Race
import LearningIndex.Proofs.Handling.Repetition

/-!
# Calls agree

Calls that race leave what they leave one after the other, in any order.
-/

namespace LearningIndex

variable {σ ι : Type}

/-- Calls of the indexers over parts of some entities with different ids leave the same documents,
up to the times of ingestion, in whatever interleaving their requests are answered: those that the
calls leave one after the other, in any order.  The engine counts exactly and accepts every item.
What is stored at the beginning is of no account, except that no document under an id of one of the
entities may let a call pass over another one. -/
theorem calls_agree_in_any_order [DecidableEq ι] {backend : Backend σ} (exact : backend.Exact)
    (never : backend.NeverFails) (aggregates : backend.Aggregates) (keepAlive : String)
    (uploadLimit : Nat) {entities : List Entity}
    (distinct : (entities.map fun entity => (entity.kind, entity.key)).Nodup)
    (fits : ∀ entity ∈ entities, entity.Fits) {calls : ι → IndexCall}
    (parts : ∀ caller, (calls caller).entities ⊆ entities) {begun : σ}
    (unmisled : ∀ caller, (calls caller).IsUnmisled backend (.new true keepAlive uploadLimit)
      entities begun)
    {after : Crowd services ι IndexingError Bool σ}
    (reaches : Crowd.Reaches backend.serve
      ⟨fun caller => (calls caller).task keepAlive uploadLimit, begun⟩ after)
    (ended : after.HasEnded) {order : List ι} (once : order.Nodup)
    (all : ∀ caller, caller ∈ order) (index id : String) :
    backend.lasting after.state index id =
      backend.lasting (Crowd.inTurn backend.serve
        (fun caller => (calls caller).task keepAlive uploadLimit) order begun) index id := by
  let race : Race σ ι := ⟨backend, keepAlive, uploadLimit, entities, calls, begun⟩
  have fair : race.IsFair := ⟨exact, never, aggregates, distinct, fits, parts, unmisled⟩
  obtain ⟨last, reaches', ended', same⟩ :=
    Crowd.exists_ended_inTurn backend.serve once all race.program begun
  have agree := (fair.settles reaches ended).lasting_eq (fair.settles reaches' ended') index id
  rwa [same] at agree

namespace IndexCall.Sample

open Handler.Sample (counting exact_counting neverFails_counting aggregates_counting)

/-- A learning material without a file. -/
def atlas : LearningMaterial := ⟨1, "Atlas", none, none, none⟩

def primer : LearningMaterial := ⟨2, "Primer", none, none, none⟩

def library : List Entity := [.learningMaterial atlas, .learningMaterial primer]

def request : IndexCall := .learningMaterials library false

/-- Two callers make the same call. -/
def programs (_ : Bool) : Task Bool := request.task "1m" 8000000

def shelves : Snapshot where
  learningMaterials := [atlas, primer]

def message : IndexMessage := .indexLearningMaterials [1, 2] false

def indexer : LearningMaterialIndexer := .new true "1m" 8000000

/-- A learning material as far as the index is concerned. -/
noncomputable def subject (material : LearningMaterial) : Subject :=
  .ofMaterial indexer counting.files material

/-- The document of a learning material without a file. -/
def page (material : LearningMaterial) : Document :=
  LearningMaterialIndexer.chunkDocument material 0 []

theorem subjects_message :
    message.subjects shelves indexer counting.files = [subject atlas, subject primer] := rfl

theorem fits_shelves : shelves.Fits :=
  ⟨by decide, by decide, by decide⟩

theorem isRequest_message : message.IsRequest := trivial

theorem distinct_library : (library.map fun entity => (entity.kind, entity.key)).Nodup := by
  simp [library, Entity.kind, Entity.key, atlas, primer]

theorem fits_library : ∀ entity ∈ library, entity.Fits := by
  simp [library, Entity.Fits, atlas, primer, Json.isSigned64]

/-- Both callers find out what to write before one of them writes. -/
theorem exists_race {state : Memory} {subjects : List Subject} {documents : List Document}
    (pending : message.pending shelves indexer counting state = subjects)
    (built : ∀ time, Subject.gather time subjects = .ok documents) (filled : documents ≠ []) :
    ∃ after middle, Crowd.Reaches counting.serve ⟨programs, state⟩ after ∧ after.HasEnded ∧
      counting.SameDocuments state middle ∧
        after.state = (counting.serve (bulkRequest message.target documents)
          (counting.serve (bulkRequest message.target documents) middle).2).2 := by
  obtain ⟨prelude, same, prepared⟩ := Handler.exists_prelude exact_counting aggregates_counting
    fits_shelves "1m" 8000000 isRequest_message
  obtain ⟨_, noon, _, first⟩ := prepared state
  obtain ⟨_, evening, _, second⟩ := prepared noon
  rw [IndexMessage.pending_congr first.same] at second
  rw [show message.pending shelves (.new true "1m" 8000000) counting state = subjects from pending,
    built] at first second
  let writing : Task Bool := Catalog.write ⟨message.target, "1m", true⟩ documents
  have due (caller : Bool) : programs caller =
      prelude.andThen (Catalog.write ⟨message.target, "1m", true⟩) := same
  have started := Crowd.reaches_andThen (due false) first.ran
  have waiting : Function.update programs false writing true =
      prelude.andThen (Catalog.write ⟨message.target, "1m", true⟩) := due true
  have informed := Crowd.reaches_andThen waiting second.ran
  have both : Function.update (Function.update programs false writing) true writing =
      fun _ => writing := by
    funext caller
    cases caller <;> rfl
  rw [show Function.update (Function.update programs false writing) true _ = _ from both]
    at informed
  obtain ⟨after, finished, ended, outcome⟩ := Crowd.exists_ended_inTurn counting.serve
    (show [false, true].Nodup by decide) (by decide) (fun _ => writing) evening
  refine ⟨after, evening, (started.trans informed).trans finished, ended,
    first.same.trans second.same, outcome.trans ?_⟩
  have ran (moment : Memory) : (writing.run counting.serve moment).2 =
      (counting.serve (bulkRequest message.target documents) moment).2 :=
    congrArg Prod.snd (Catalog.run_write counting rfl filled moment).1
  rw [← ran, ← ran]
  rfl

theorem pending_blank :
    message.pending shelves indexer counting (.blank .epoch) = [subject atlas, subject primer] := by
  classical
  refine List.filter_eq_self.mpr fun subject _ => decide_eq_true ?_
  rintro ⟨query, _, document, present, _⟩
  exact absurd present List.not_mem_nil

/-- Two callers that find nothing in an empty index write both learning materials twice. -/
theorem calls_agree_on_blank :
    (counting.Exact ∧ counting.NeverFails ∧ counting.Aggregates ∧
      (library.map fun entity => (entity.kind, entity.key)).Nodup ∧
      (∀ entity ∈ library, entity.Fits) ∧ request.entities ⊆ library ∧
      request.IsUnmisled counting indexer library (.blank .epoch)) ∧
    ∃ after, Crowd.Reaches counting.serve ⟨programs, .blank .epoch⟩ after ∧ after.HasEnded ∧
      ∀ index id, counting.lasting after.state index id =
        counting.lasting (Crowd.inTurn counting.serve programs [true, false] (.blank .epoch))
          index id := by
  have orderly : Orderly counting (.blank .epoch) := fun _ _ member =>
    absurd member List.not_mem_nil
  have unmisled := orderly.isUnmisled indexer fits_library request
  have parts : request.entities ⊆ library := List.Subset.refl _
  refine ⟨⟨exact_counting, neverFails_counting, aggregates_counting, distinct_library,
    fits_library, parts, unmisled⟩, ?_⟩
  have built (time : String) : Subject.gather time [subject atlas, subject primer] =
      .ok [page atlas, page primer] := rfl
  obtain ⟨after, _, reaches, ended, _⟩ :=
    exists_race pending_blank built (List.cons_ne_nil _ _)
  exact ⟨after, reaches, ended, calls_agree_in_any_order exact_counting neverFails_counting
    aggregates_counting "1m" 8000000 distinct_library fits_library (fun _ => parts)
    (fun _ => unmisled) reaches ended (by decide) (by decide)⟩

/-- A document under the id of the first learning material that names the second. -/
def mixed : Memory :=
  (Memory.blank .epoch).write ⟨⟨LearningMaterialIndexer.indexName, (page atlas).id⟩,
    [(LearningMaterialIndexer.idField, .integer 2)]⟩

theorem ids_ne : (page atlas).id ≠ (page primer).id := by
  intro same
  have ids := (LearningMaterialIndexer.documentId_inj.mp same).2
  cases ids

theorem documents_mixed : counting.documents mixed LearningMaterialIndexer.indexName =
    [⟨(page atlas).id, [(LearningMaterialIndexer.idField, .integer 2)]⟩] := rfl

theorem lasting_mixed {id : String} (other : id ≠ (page atlas).id) :
    counting.lasting mixed message.target id = none := by
  have absent : (counting.documents mixed message.target).find? (fun document => document.id = id) =
      none := by
    rw [show counting.documents mixed message.target = _ from documents_mixed]
    simp [other.symm]
  rw [Backend.lasting, Backend.stored, absent]
  rfl

theorem passesOver_mixed_iff (id : Int) :
    message.PassesOver counting mixed (.integer id) ↔ id = 2 := by
  rw [message, IndexMessage.passesOver_learningMaterials_iff, Catalog.Occurs, documents_mixed]
  simp [Document.get?, Fields.get?, Fields.IsRecent, eq_comm]

/-- The second learning material is passed over, because of the document under the id of the
first. -/
theorem pending_mixed : message.pending shelves indexer counting mixed = [subject atlas] := by
  have first : ¬ message.PassesOver counting mixed (subject atlas).key := by
    rw [subject, Subject.key_ofMaterial, passesOver_mixed_iff]
    decide
  have second : message.PassesOver counting mixed (subject primer).key := by
    rw [subject, Subject.key_ofMaterial, passesOver_mixed_iff]
    rfl
  rw [IndexMessage.pending, subjects_message]
  simp [first, second]

theorem lasting_run (caller : Bool) (state : Memory) (id : String) :
    counting.lasting ((programs caller).run counting.serve state).2 message.target id =
      (latest (Subject.written (message.pending shelves indexer counting state)) id).or
        (counting.lasting state message.target id) := by
  have served := Handler.served_handle exact_counting aggregates_counting fits_shelves "1m" 8000000
    isRequest_message state
  exact served.lasting_eq exact_counting neverFails_counting
    (IndexMessage.isSound_of_mem_pending message fits_shelves indexer counting state) id

/-- After one of the callers is done nothing names the second learning material. -/
theorem not_passesOver_once (caller : Bool) :
    ¬ message.PassesOver counting ((programs caller).run counting.serve mixed).2 (.integer 2) := by
  have written : Subject.written [subject atlas] = [page atlas] := rfl
  rw [message, IndexMessage.passesOver_learningMaterials_iff]
  rintro ⟨-, document, stored, named, -⟩
  rw [Backend.mem_documents_iff exact_counting] at stored
  have lasting : counting.lasting _ LearningMaterialIndexer.indexName document.id = _ :=
    lasting_run caller mixed document.id
  rw [pending_mixed, written, Backend.lasting, stored, Option.map_some] at lasting
  by_cases same : document.id = (page atlas).id
  · have own := (LearningMaterialIndexer.isPieceOf_chunkDocument atlas 0 []).field
    rw [same, show latest [page atlas] (page atlas).id = some (page atlas).source.lasting by
      simp [latest], Option.some_or] at lasting
    have alike := Fields.get?_eq_of_lasting_eq message.keyField_ne_timeField
      (Option.some.inj lasting)
    cases (named.symm.trans alike).trans own
  · rw [latest_eq_none_iff.mpr (List.forall_mem_singleton.mpr (Ne.symm same)),
      lasting_mixed same] at lasting
    cases lasting

theorem lasting_twice_ne (first second : Bool) :
    counting.lasting (Crowd.inTurn counting.serve programs [first, second] mixed) message.target
      (page primer).id ≠ none := by
  let once := ((programs first).run counting.serve mixed).2
  have due : subject primer ∈ message.pending shelves indexer counting once := by
    refine IndexMessage.mem_pending_iff.mpr ⟨by simp [subjects_message], ?_⟩
    rw [subject, Subject.key_ofMaterial]
    exact not_passesOver_once first
  have clean : ∀ one ∈ message.pending shelves indexer counting once, one.fault = none := by
    intro one pending
    have among := (IndexMessage.mem_pending_iff.mp pending).1
    rw [subjects_message] at among
    rcases List.mem_pair.mp among with rfl | rfl <;> rfl
  have sent : page primer ∈ Subject.written (message.pending shelves indexer counting once) := by
    rw [Subject.written_of_clean clean]
    exact List.mem_flatMap.mpr ⟨subject primer, due, List.mem_cons_self⟩
  change counting.lasting ((programs second).run counting.serve once).2 _ _ ≠ none
  rw [lasting_run, Ne, Option.or_eq_none_iff]
  rintro ⟨unsent, _⟩
  exact latest_eq_none_iff.mp unsent _ sent rfl

/-- If a document under the id of one learning material names the other one, callers that race leave
the other one unwritten, which they write one after the other. -/
theorem exists_lost_material :
    (counting.Exact ∧ counting.NeverFails ∧ counting.Aggregates ∧
      (library.map fun entity => (entity.kind, entity.key)).Nodup ∧
      (∀ entity ∈ library, entity.Fits) ∧ request.entities ⊆ library) ∧
    ∃ after, Crowd.Reaches counting.serve ⟨programs, mixed⟩ after ∧ after.HasEnded ∧
      counting.lasting after.state LearningMaterialIndexer.indexName
        (LearningMaterialIndexer.documentId 0 2) = none ∧
      ∀ first second, counting.lasting
        (Crowd.inTurn counting.serve programs [first, second] mixed)
          LearningMaterialIndexer.indexName (LearningMaterialIndexer.documentId 0 2) ≠ none := by
  refine ⟨⟨exact_counting, neverFails_counting, aggregates_counting, distinct_library,
    fits_library, List.Subset.refl _⟩, ?_⟩
  have built (time : String) : Subject.gather time [subject atlas] = .ok [page atlas] := rfl
  obtain ⟨after, middle, reaches, ended, same, outcome⟩ :=
    exists_race pending_mixed built (List.cons_ne_nil _ _)
  refine ⟨after, reaches, ended, ?_, lasting_twice_ne⟩
  have unsent : ∀ document ∈ [page atlas], document.id ≠ (page primer).id :=
    List.forall_mem_singleton.mpr ids_ne
  have kept (state : Memory) : counting.stored (counting.serve (bulkRequest message.target
      [page atlas]) state).2 message.target (page primer).id =
        counting.stored state message.target (page primer).id :=
    stored_bulk_of_unsent exact_counting unsent state
  calc
    counting.lasting after.state message.target (page primer).id
        = counting.lasting middle message.target (page primer).id := by
          rw [outcome]
          exact Backend.lasting_eq_of_stored_eq ((kept _).trans (kept middle))
    _ = counting.lasting mixed message.target (page primer).id :=
      Backend.lasting_eq_of_stored_eq (Backend.stored_eq_of_documents_eq (same _) _)
    _ = none := lasting_mixed (Ne.symm ids_ne)

end IndexCall.Sample

end LearningIndex
