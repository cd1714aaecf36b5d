import LearningIndex.Proofs.Handling.Alone

/-!
# What a bulk request leaves

A bulk request without errors leaves, under each id that it carries, the last document with that id.
A request of which some items are rejected leaves a part of that.  Either way the entities that were
passed over before the request are passed over after it, because no document of them was sent.
-/

namespace LearningIndex

/-- The lasting fields of the last of some documents with an id. -/
def latest (documents : List Document) (id : String) : Option Fields :=
  (documents.reverse.find? fun document => document.id = id).map (·.source.lasting)

@[simp]
theorem latest_nil (id : String) : latest [] id = none := rfl

theorem latest_append (first second : List Document) (id : String) :
    latest (first ++ second) id = (latest second id).or (latest first id) := by
  rw [latest, List.reverse_append, List.find?_append, Option.map_or]
  rfl

theorem latest_eq_none_iff {documents : List Document} {id : String} :
    latest documents id = none ↔ ∀ document ∈ documents, document.id ≠ id := by
  simp [latest]

theorem latest_eq_some_iff {documents : List Document} {id : String} {fields : Fields} :
    latest documents id = some fields ↔
      ∃ earlier document later, documents = earlier ++ document :: later ∧ document.id = id ∧
        document.source.lasting = fields ∧ ∀ other ∈ later, other.id ≠ id := by
  rw [latest, Option.map_eq_some_iff]
  constructor
  · rintro ⟨document, found, rfl⟩
    obtain ⟨own, front, back, split, others⟩ := List.find?_eq_some_iff_append.mp found
    refine ⟨back.reverse, document, front.reverse, ?_, by simpa using own, rfl, ?_⟩
    · rw [← List.reverse_inj, split]
      simp
    · intro other member
      simpa using others other (List.mem_reverse.mp member)
  · rintro ⟨earlier, document, later, rfl, rfl, rfl, others⟩
    refine ⟨document, List.find?_eq_some_iff_append.mpr ?_, rfl⟩
    refine ⟨by simp, later.reverse, earlier.reverse, by simp, fun other member => ?_⟩
    simpa using others other (List.mem_reverse.mp member)

theorem latest_congr {documents others : List Document}
    (alike : documents.map (fun document => (document.id, document.source.lasting)) =
      others.map fun document => (document.id, document.source.lasting)) (id : String) :
    latest documents id = latest others id := by
  have pairs (documents : List Document) : latest documents id =
      ((documents.map fun document => (document.id, document.source.lasting)).reverse.find?
        fun pair => pair.1 = id).map (·.2) := by
    rw [latest, ← List.map_reverse, List.find?_map, Option.map_map]
    rfl
  rw [pairs, pairs, alike]

namespace Subject

/-- Subjects without a document of some id may be left out. -/
theorem latest_flatMap_filter {subjects : List Subject} {index field : String}
    (sound : ∀ subject ∈ subjects, subject.IsSound index field) (keeps : Subject → Bool)
    (time other id : String)
    (unrelated : ∀ subject ∈ subjects, keeps subject = false →
      ∀ document ∈ subject.documents time, document.id ≠ id) :
    latest ((subjects.filter keeps).flatMap (·.documents other)) id =
      latest (subjects.flatMap (·.documents time)) id := by
  induction subjects with
  | nil => rfl
  | cons subject rest ih =>
      have others := ih (fun subject member => sound subject (List.mem_cons_of_mem _ member))
        (fun subject member => unrelated subject (List.mem_cons_of_mem _ member))
      have timeless := (sound subject List.mem_cons_self).timeless other time
      rw [List.flatMap_cons, latest_append, ← others]
      cases kept : keeps subject with
      | true =>
          rw [List.filter_cons_of_pos kept, List.flatMap_cons, latest_append,
            latest_congr timeless id]
      | false =>
          rw [List.filter_cons_of_neg (by simp [kept]),
            latest_eq_none_iff.mpr (unrelated subject List.mem_cons_self kept), Option.or_none]

end Subject

section Bulk

variable {σ : Type} {backend : Backend σ}

theorem stored_bulk_of_unsent (exact : backend.Exact) {index id : String}
    {documents : List Document} (unsent : ∀ document ∈ documents, document.id ≠ id) (state : σ) :
    backend.stored (backend.serve (bulkRequest index documents) state).2 index id =
      backend.stored state index id := by
  refine (exact.replaced _ state index id).resolve_right ?_
  rintro ⟨operation, member, action, _⟩
  obtain ⟨document, inside, rfl⟩ := List.mem_map.mp member
  exact unsent document inside (congrArg BulkAction.id action)

/-- A bulk request without errors leaves the last document with each of its ids. -/
theorem lasting_bulk (exact : backend.Exact) {index : String} {documents : List Document}
    {state : σ} {reply : BulkReply}
    (answered : (backend.serve (bulkRequest index documents) state).1 = .ok reply)
    (clean : reply.errors = false) (id : String) :
    backend.lasting (backend.serve (bulkRequest index documents) state).2 index id =
      (latest documents id).or (backend.lasting state index id) := by
  cases last : latest documents id with
  | none =>
      rw [Option.none_or]
      exact Backend.lasting_eq_of_stored_eq
        (stored_bulk_of_unsent exact (latest_eq_none_iff.mp last) state)
  | some fields =>
      obtain ⟨earlier, document, later, rfl, rfl, rfl, others⟩ := latest_eq_some_iff.mp last
      refine exact.written _ state reply answered clean (earlier.map (BulkOperation.index index))
        (BulkOperation.index index document) (later.map (BulkOperation.index index)) (by simp) ?_
      intro operation member same
      obtain ⟨other, inside, rfl⟩ := List.mem_map.mp member
      exact others other inside (congrArg BulkAction.id same)

theorem documents_bulk_of_ne (exact : backend.Exact) {index other : String} (apart : index ≠ other)
    (documents : List Document) (state : σ) :
    backend.documents (backend.serve (bulkRequest index documents) state).2 other =
      backend.documents state other := by
  refine exact.kept _ state other ?_
  rintro ⟨operation, member, same⟩
  obtain ⟨document, _, rfl⟩ := List.mem_map.mp member
  exact apart same

end Bulk

namespace IndexMessage

variable {σ : Type} {backend : Backend σ} {message : IndexMessage}

theorem passesOver_congr {before after : σ} (same : backend.SameDocuments before after)
    (key : Json) :
    message.PassesOver backend after key ↔ message.PassesOver backend before key := by
  unfold PassesOver
  simp only [Catalog.occurs_congr (same _)]

/-- What is passed over before documents of other entities are sent is passed over afterwards, also
if some of the documents are rejected. -/
theorem PassesOver.after_bulk (exact : backend.Exact) {state : σ} (orderly : Orderly backend state)
    {documents : List Document}
    (belong : ∀ document ∈ documents, Belongs message.target document)
    (apart : ∀ document ∈ documents, ∀ key, document.get? message.keyField = some key →
      ¬ message.PassesOver backend state key) {key : Json}
    (passed : message.PassesOver backend state key) :
    message.PassesOver backend
      (backend.serve (bulkRequest message.target documents) state).2 key := by
  obtain ⟨query, asked, document, present, shown, recent⟩ := id passed
  obtain ⟨index, field⟩ := skipQuery?_about asked
  refine ⟨query, asked, document, ?_, shown, recent⟩
  rw [index] at present ⊢
  rw [field] at shown
  rw [Backend.mem_documents_iff exact] at present ⊢
  rw [← present]
  refine stored_bulk_of_unsent exact (fun other inside same => ?_) state
  have held := orderly message.target document ((Backend.mem_documents_iff exact).mpr present)
  exact apart other inside key
    ((message.keyField_eq_of_id_eq (belong other inside) held same).trans shown) passed

end IndexMessage

variable {σ : Type} {backend : Backend σ}

section Pending

variable {message : IndexMessage} {snapshot : Snapshot} {indexer : LearningMaterialIndexer}
variable {before after : σ}

theorem IndexMessage.pending_congr (same : backend.SameDocuments before after) :
    message.pending snapshot indexer backend after =
      message.pending snapshot indexer backend before := by
  unfold pending
  refine List.filter_congr fun subject _ => ?_
  exact decide_eq_decide.mpr (not_congr (passesOver_congr same subject.key))

theorem IndexMessage.mem_pending_iff {state : σ} {subject : Subject} :
    subject ∈ message.pending snapshot indexer backend state ↔
      subject ∈ message.subjects snapshot indexer backend.files ∧
        ¬ message.PassesOver backend state subject.key := by
  simp [pending]

/-- If no entity is passed over any less, what is pending afterwards was pending before. -/
theorem IndexMessage.pending_subset
    (monotone : ∀ key, message.PassesOver backend before key →
      message.PassesOver backend after key) :
    message.pending snapshot indexer backend after ⊆
      message.pending snapshot indexer backend before := by
  intro subject member
  obtain ⟨among, unpassed⟩ := mem_pending_iff.mp member
  exact mem_pending_iff.mpr ⟨among, mt (monotone subject.key) unpassed⟩

theorem IndexMessage.isSound_of_mem_pending (message : IndexMessage) (fits : snapshot.Fits)
    (indexer : LearningMaterialIndexer) (backend : Backend σ) (state : σ) :
    ∀ subject ∈ message.pending snapshot indexer backend state,
      subject.IsSound message.target message.keyField :=
  fun _ member => isSound_of_mem_subjects fits (mem_pending_iff.mp member).1

/-- What is written under the id of a document is written of the entity of the document: all that
the message has for this id if the entity is pending, and nothing if it is passed over. -/
theorem IndexMessage.latest_pending (fits : snapshot.Fits) (state : σ) {subject : Subject}
    (member : subject ∈ message.subjects snapshot indexer backend.files) {built : String}
    {document : Document} (own : document ∈ subject.documents built) (time : String) :
    (¬ message.PassesOver backend state subject.key →
      latest ((message.pending snapshot indexer backend state).flatMap (·.documents time))
          document.id =
        latest ((message.subjects snapshot indexer backend.files).flatMap (·.documents ""))
          document.id) ∧
    (message.PassesOver backend state subject.key →
      latest ((message.pending snapshot indexer backend state).flatMap (·.documents time))
        document.id = none) := by
  have sound (subject : Subject)
      (member : subject ∈ message.subjects snapshot indexer backend.files) :=
    isSound_of_mem_subjects fits member
  -- Subjects with a document of one id have the same key.
  have keys {other : Subject} (among : other ∈ message.subjects snapshot indexer backend.files)
      {moment : String} {twin : Document} (inside : twin ∈ other.documents moment)
      (same : twin.id = document.id) : other.key = subject.key := by
    have alike := message.keyField_eq_of_id_eq ((sound other among).belongs moment twin inside)
      ((sound subject member).belongs built document own) same
    rwa [(sound other among).keyed moment twin inside,
      (sound subject member).keyed built document own, Option.some.injEq] at alike
  refine ⟨fun unpassed => ?_, fun passed => latest_eq_none_iff.mpr fun twin inside same => ?_⟩
  · refine Subject.latest_flatMap_filter sound _ "" time _
      fun other among dropped twin inside same => ?_
    rw [decide_eq_false_iff_not, not_not, keys among inside same] at dropped
    exact unpassed dropped
  · obtain ⟨other, pending, written⟩ := List.mem_flatMap.mp inside
    obtain ⟨among, unpassed⟩ := mem_pending_iff.mp pending
    rw [keys among written same] at unpassed
    exact unpassed passed

end Pending

namespace Subject

/-- What is written of some subjects, up to the time: nothing if there is a fault. -/
def written (subjects : List Subject) : List Document :=
  (gather "" subjects).toOption.getD []

theorem written_of_faulty {subjects : List Subject} {subject : Subject}
    (member : subject ∈ subjects) (faulty : subject.fault ≠ none) : written subjects = [] := by
  unfold written
  cases built : gather "" subjects with
  | error error => rfl
  | ok documents => exact absurd ((gather_eq_ok_iff.mp built).1 subject member) faulty

theorem written_of_clean {subjects : List Subject}
    (clean : ∀ subject ∈ subjects, subject.fault = none) :
    written subjects = subjects.flatMap (·.documents "") := by
  rw [written, gather_eq_ok_iff.mpr ⟨clean, rfl⟩]
  rfl

theorem latest_gather {subjects : List Subject} {index field time : String}
    (sound : ∀ subject ∈ subjects, subject.IsSound index field) {documents : List Document}
    (built : gather time subjects = .ok documents) (id : String) :
    latest documents id = latest (written subjects) id := by
  obtain ⟨clean, rfl⟩ := gather_eq_ok_iff.mp built
  have kept := latest_flatMap_filter sound (fun _ => true) "" time id (by simp)
  rwa [List.filter_eq_self.mpr (by simp), ← written_of_clean clean] at kept

end Subject

namespace Served

variable {index field : String} {subjects : List Subject} {state after : σ}
variable {outcome : Except IndexingError Bool} {bulks : List (List BulkOperation)}

/-- Under each id there is the last document that is written with it, or what was there before. -/
theorem lasting_eq (exact : backend.Exact) (never : backend.NeverFails)
    (sound : ∀ subject ∈ subjects, subject.IsSound index field)
    (served : Served backend index subjects state outcome after bulks) (id : String) :
    backend.lasting after index id =
      (latest (Subject.written subjects) id).or (backend.lasting state index id) := by
  have kept {middle : σ} (same : backend.SameDocuments state middle) :
      backend.lasting middle index id = backend.lasting state index id :=
    Backend.lasting_eq_of_stored_eq (Backend.stored_eq_of_documents_eq (same index) id)
  cases served with
  | faulty failed same =>
      obtain ⟨subject, member, faulty⟩ := Subject.exists_fault_of_gather failed
      rw [Subject.written_of_faulty member faulty, latest_nil, Option.none_or, kept same]
  | idle nothing same =>
      rw [← Subject.latest_gather sound nothing, latest_nil, Option.none_or, kept same]
  | @sent _ middle documents _ _ built _ same =>
      obtain ⟨reply, answered, clean⟩ :=
        never.bulk (documents.map (BulkOperation.index index)) middle
      rw [lasting_bulk exact answered clean, Subject.latest_gather sound built, kept same]

theorem documents_of_ne (exact : backend.Exact) {other : String} (apart : index ≠ other)
    (served : Served backend index subjects state outcome after bulks) :
    backend.documents after other = backend.documents state other := by
  cases served with
  | faulty _ same => exact same other
  | idle _ same => exact same other
  | sent _ _ _ _ same => exact (documents_bulk_of_ne exact apart _ _).trans (same other)

theorem same_of_fault (served : Served backend index subjects state outcome after bulks)
    {subject : Subject} (member : subject ∈ subjects) (fault : subject.fault ≠ none) :
    backend.SameDocuments state after := by
  cases served with
  | faulty _ same => exact same
  | idle _ same => exact same
  | sent _ _ built =>
      exact absurd ((Subject.gather_eq_ok_iff.mp built).1 subject member) fault

end Served

theorem Served.exists_sent {index : String} {subjects : List Subject} {state after : σ}
    {outcome : Except IndexingError Bool} {bulks : List (List BulkOperation)}
    (served : Served backend index subjects state outcome after bulks)
    (clean : ∀ subject ∈ subjects, subject.fault = none)
    (filled : ∀ time, subjects.flatMap (·.documents time) ≠ []) :
    ∃ time middle, backend.Later state middle ∧ backend.SameDocuments state middle ∧
      outcome = ((backend.serve (bulkRequest index (subjects.flatMap (·.documents time)))
        middle).1.mapError .engine).map (fun reply => !reply.errors) ∧
      after = (backend.serve (bulkRequest index (subjects.flatMap (·.documents time))) middle).2 ∧
      bulks = [(subjects.flatMap (·.documents time)).map (BulkOperation.index index)] := by
  cases served with
  | faulty failed _ =>
      obtain ⟨subject, member, fault⟩ := Subject.exists_fault_of_gather failed
      exact absurd (clean subject member) fault
  | idle nothing _ => exact absurd (Subject.gather_eq_ok_iff.mp nothing).2.symm (filled _)
  | @sent moment middle documents _ later built _ same =>
      obtain ⟨_, rfl⟩ := Subject.gather_eq_ok_iff.mp built
      exact ⟨_, middle, later, same, rfl, rfl, rfl⟩

/-- What a message passes over before it is handled it passes over afterwards, however that ends. -/
theorem Served.passesOver (exact : backend.Exact) {snapshot : Snapshot} (fits : snapshot.Fits)
    {indexer : LearningMaterialIndexer} {message : IndexMessage} {state after : σ}
    {outcome : Except IndexingError Bool} {bulks : List (List BulkOperation)}
    (orderly : Orderly backend state)
    (served : Served backend message.target (message.pending snapshot indexer backend state) state
      outcome after bulks) {key : Json} (passed : message.PassesOver backend state key) :
    message.PassesOver backend after key := by
  cases served with
  | faulty _ same => exact (IndexMessage.passesOver_congr same key).mpr passed
  | idle _ same => exact (IndexMessage.passesOver_congr same key).mpr passed
  | @sent moment middle documents _ _ built _ same =>
      obtain ⟨_, rfl⟩ := Subject.gather_eq_ok_iff.mp built
      have sound := message.isSound_of_mem_pending fits indexer backend state
      have orderly' : Orderly backend middle := fun index document member =>
        orderly index document (same index ▸ member)
      refine IndexMessage.PassesOver.after_bulk exact orderly' ?_ ?_
        ((IndexMessage.passesOver_congr same key).mpr passed)
      · intro document inside
        obtain ⟨subject, member, own⟩ := List.mem_flatMap.mp inside
        exact (sound subject member).belongs _ document own
      · intro document inside key shown
        obtain ⟨subject, member, own⟩ := List.mem_flatMap.mp inside
        rw [(sound subject member).keyed _ document own] at shown
        obtain rfl := Option.some.inj shown
        exact fun passed => (IndexMessage.mem_pending_iff.mp member).2
          ((IndexMessage.passesOver_congr same _).mp passed)

end LearningIndex
