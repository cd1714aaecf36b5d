import LearningIndex.Proofs.Handling.Repetition

/-!
# Handling a message again after rejections

An engine may reject some of the documents that a message sends; the message then counts as
degraded.  When it is handled again, the entities of which a document was accepted meanwhile are
passed over, unless the message is forced or what was accepted is older than its stamp.  So an
entity of which all documents were rejected is completed, and one of which some were rejected may
stay as it is.
-/

namespace LearningIndex

variable {σ : Type} {backend : Backend σ}

section Rejecting

/-- The backend with an engine that rejects some documents and takes the others. -/
def Backend.rejecting (backend : Backend σ) (rejects : BulkOperation → Bool) : Backend σ where
  serve
    | .engine (.bulk operations), state =>
      let (reply, after) := backend.serve
        (.engine (.bulk (operations.filter fun operation => !rejects operation))) state
      (Except.map (fun reply : BulkReply => { reply with
        errors := reply.errors || operations.any rejects }) reply, after)
    | request, state => backend.serve request state
  documents := backend.documents
  remaining := backend.remaining
  files := backend.files

theorem Backend.Exact.rejecting (exact : backend.Exact) (rejects : BulkOperation → Bool) :
    (backend.rejecting rejects).Exact where
  distinct := exact.distinct
  file := exact.file
  kept request state index untouched := by
    simp only [Backend.rejecting]
    split
    · refine exact.kept _ _ index ?_
      rintro ⟨operation, member, same⟩
      exact untouched ⟨operation, List.mem_of_mem_filter member, same⟩
    · exact exact.kept _ state index untouched
  opened request state unscrolled := by
    simp only [Backend.rejecting]
    split
    · exact exact.opened _ _ (by simp [Service.Request.Scrolls])
    · exact exact.opened _ state unscrolled
  replaced operations state index id := by
    rcases exact.replaced (operations.filter fun operation => !rejects operation) state index id
      with same | ⟨operation, member, action, lasting⟩
    · exact .inl same
    · exact .inr ⟨operation, List.mem_of_mem_filter member, action, lasting⟩
  written operations state reply answered clean := by
    change Except.map _ (backend.serve (.engine (.bulk (operations.filter
      fun operation => !rejects operation))) state).1 = _ at answered
    cases accepted : (backend.serve (.engine (.bulk (operations.filter
        fun operation => !rejects operation))) state).1 with
    | error error => simp [accepted, Except.map] at answered
    | ok inner =>
        rw [accepted] at answered
        obtain rfl := Except.ok.inj answered
        obtain ⟨fine, unrejected⟩ := Bool.or_eq_false_iff.mp clean
        have all : (operations.filter fun operation => !rejects operation) = operations := by
          simpa using unrejected
        change ∀ earlier operation later, _ → _ → backend.lasting (backend.serve (.engine (.bulk
          (operations.filter fun operation => !rejects operation))) state).2 _ _ = _
        rw [all] at accepted ⊢
        exact exact.written operations state inner accepted fine
  spared := exact.spared
  removed := exact.removed
  found := exact.found
  listed := exact.listed
  continued := exact.continued

theorem Backend.Aggregates.rejecting (aggregates : backend.Aggregates)
    (rejects : BulkOperation → Bool) : (backend.rejecting rejects).Aggregates :=
  ⟨aggregates.kept, aggregates.counted⟩

theorem Backend.Later.of_rejecting {rejects : BulkOperation → Bool} {before after : σ}
    (later : (backend.rejecting rejects).Later before after) : backend.Later before after := by
  induction later with
  | refl => exact .refl
  | tail _ step ih =>
      obtain ⟨request, rfl⟩ := step
      refine ih.tail ?_
      simp only [Backend.rejecting]
      split
      · exact ⟨_, rfl⟩
      · exact ⟨request, rfl⟩

/-- Of the documents of a bulk request those arrive that are not rejected. -/
theorem Backend.serve_rejecting_bulkRequest (backend : Backend σ) (rejects : BulkOperation → Bool)
    (index : String) (documents : List Document) (state : σ) :
    ((backend.rejecting rejects).serve (bulkRequest index documents) state).2 =
      (backend.serve (bulkRequest index
        (documents.filter fun document => !rejects (.index index document))) state).2 := by
  change (backend.serve (.engine (.bulk ((documents.map (BulkOperation.index index)).filter
    fun operation => !rejects operation))) state).2 = _
  rw [List.filter_map]
  rfl

end Rejecting

/-- The document of an operation is in the index, up to the time of ingestion. -/
def BulkOperation.IsHeld (operation : BulkOperation) (backend : Backend σ) (state : σ) : Prop :=
  backend.lasting state operation.action.index operation.action.id =
    some operation.document.lasting

theorem BulkOperation.isHeld_index_iff {index : String} {document : Document} {state : σ} :
    (BulkOperation.index index document).IsHeld backend state ↔
      backend.lasting state index document.id = some document.source.lasting := .rfl

namespace IndexMessage

variable {message : IndexMessage}

theorem not_isForced_of_passesOver {state : σ} {key : Json}
    (passed : message.PassesOver backend state key) : ¬ message.IsForced := by
  obtain ⟨query, asked, _⟩ := passed
  cases message with
  | indexLearningMaterials ids force =>
      rintro rfl
      cases asked
  | _ => exact fun forced => forced

theorem pending_of_eq {first second : Backend σ} (documents : second.documents = first.documents)
    (files : second.files = first.files) (snapshot : Snapshot) (indexer : LearningMaterialIndexer)
    (state : σ) : message.pending snapshot indexer second state =
      message.pending snapshot indexer first state := by
  classical
  unfold pending
  rw [files]
  refine List.filter_congr fun subject _ => decide_eq_decide.mpr (not_congr ?_)
  rw [PassesOver, PassesOver]
  unfold Catalog.Occurs
  rw [documents]

end IndexMessage

namespace Served

variable {index : String} {subjects : List Subject} {state after : σ}
variable {bulks : List (List BulkOperation)}

/-- If some documents are rejected, the documents of all subjects were sent. -/
theorem sent_of_degraded (served : Served backend index subjects state (.ok false) after bulks) :
    ∃ time middle, (∀ subject ∈ subjects, subject.fault = none) ∧
      backend.SameDocuments state middle ∧
      after = (backend.serve (bulkRequest index (subjects.flatMap (·.documents time))) middle).2 ∧
      bulks = [(subjects.flatMap (·.documents time)).map (BulkOperation.index index)] := by
  generalize ending : (Except.ok false : Except IndexingError Bool) = outcome at served
  cases served with
  | faulty => cases ending
  | idle => cases ending
  | @sent moment middle _ _ _ built _ same =>
      obtain ⟨clean, rfl⟩ := Subject.gather_eq_ok_iff.mp built
      exact ⟨_, middle, clean, same, rfl, rfl⟩

theorem clean_of_success (served : Served backend index subjects state (.ok true) after bulks) :
    ∀ subject ∈ subjects, subject.fault = none := by
  generalize ending : (Except.ok true : Except IndexingError Bool) = outcome at served
  cases served with
  | faulty => cases ending
  | idle nothing _ => exact (Subject.gather_eq_ok_iff.mp nothing).1
  | sent _ _ built => exact (Subject.gather_eq_ok_iff.mp built).1

theorem succeeds (never : backend.NeverFails) {outcome : Except IndexingError Bool}
    (served : Served backend index subjects state outcome after bulks)
    (clean : ∀ subject ∈ subjects, subject.fault = none) : outcome = .ok true := by
  cases served with
  | faulty failed _ =>
      obtain ⟨subject, member, fault⟩ := Subject.exists_fault_of_gather failed
      exact absurd (clean subject member) fault
  | idle => rfl
  | @sent _ middle documents =>
      obtain ⟨reply, answered, fine⟩ :=
        never.bulk (documents.map (BulkOperation.index index)) middle
      change Except.map _ (Except.mapError _ (backend.serve (.engine (.bulk (documents.map
        (BulkOperation.index index)))) middle).1) = _
      rw [answered]
      simp [Except.map, Except.mapError, fine]

theorem idle_of_nil {outcome : Except IndexingError Bool}
    (served : Served backend index [] state outcome after bulks) :
    outcome = .ok true ∧ backend.SameDocuments state after ∧ bulks = [] := by
  cases served with
  | faulty failed _ =>
      obtain ⟨_, member, _⟩ := Subject.exists_fault_of_gather failed
      exact absurd member List.not_mem_nil
  | idle _ same => exact ⟨rfl, same, rfl⟩
  | sent _ _ built filled _ => exact absurd (Subject.gather_eq_ok_iff.mp built).2 filled

end Served

/-- An entity that was not passed over before documents were sent and is passed over afterwards had
one of them accepted. -/
theorem exists_accepted (exact : backend.Exact) {message : IndexMessage} {state middle : σ}
    (same : backend.SameDocuments state middle) {documents : List Document} {key : Json}
    (before : ¬ message.PassesOver backend state key)
    (passed : message.PassesOver backend
      (backend.serve (bulkRequest message.target documents) middle).2 key) :
    ∃ document ∈ documents, document.get? message.keyField = some key ∧
      (BulkOperation.index message.target document).IsHeld backend
        (backend.serve (bulkRequest message.target documents) middle).2 ∧
      backend.stored (backend.serve (bulkRequest message.target documents) middle).2 message.target
        document.id ≠ backend.stored state message.target document.id := by
  obtain ⟨query, asked, held, present, shown, recent⟩ := id passed
  obtain ⟨index, field⟩ := IndexMessage.skipQuery?_about asked
  rw [index] at present
  rw [field] at shown
  have stored := (Backend.mem_documents_iff exact).mp present
  have changed : backend.stored (backend.serve (bulkRequest message.target documents) middle).2
      message.target held.id ≠ backend.stored state message.target held.id := by
    intro unchanged
    refine before ⟨query, asked, held, ?_, field ▸ shown, recent⟩
    rw [index, Backend.mem_documents_iff exact, ← unchanged, stored]
  have replaced := (exact.replaced _ middle message.target held.id).resolve_left fun unchanged =>
    changed (unchanged.trans (Backend.stored_eq_of_documents_eq (same message.target) held.id))
  obtain ⟨operation, member, action, lasting⟩ := replaced
  obtain ⟨document, inside, rfl⟩ := List.mem_map.mp member
  have named : document.id = held.id := congrArg BulkAction.id action
  refine ⟨document, inside, ?_, ?_, by rwa [named]⟩
  · have alike : held.source.lasting = document.source.lasting := by
      rw [Backend.lasting] at lasting
      exact Option.some.inj ((congrArg (Option.map Fields.lasting) stored).symm.trans lasting)
    exact (Fields.get?_eq_of_lasting_eq message.keyField_ne_timeField alike).symm.trans shown
  · change backend.lasting _ message.target document.id = _
    rw [named]
    exact lasting

/-- The last operation of a request for an id carries the last document with that id. -/
theorem latest_of_map_eq {index : String} {documents : List Document}
    {earlier later : List BulkOperation} {operation : BulkOperation}
    (split : documents.map (BulkOperation.index index) = earlier ++ operation :: later)
    (last : ∀ other ∈ later, other.action ≠ operation.action) :
    ∃ document ∈ documents, operation = .index index document ∧
      latest documents document.id = some document.source.lasting := by
  obtain ⟨front, back, rfl, rfl, rest⟩ := List.map_eq_append_iff.mp split
  obtain ⟨document, behind, rfl, rfl, rfl⟩ := List.map_eq_cons_iff.mp rest
  refine ⟨document, by simp, rfl, ?_⟩
  refine latest_eq_some_iff.mpr
    ⟨front, document, behind, rfl, rfl, rfl, fun other inside same => ?_⟩
  exact last _ (List.mem_map_of_mem inside) (congrArg (BulkAction.mk index) same)

/-- What became of a document that a message sent, when the message was handled again. -/
structure RetryEnds (first second : Backend σ) (message : IndexMessage)
    (operations : List BulkOperation) (state once twice : σ) (operation : BulkOperation)
    (key : Json) : Prop where
  /-- The key tells which entity the document is about. -/
  about : operation.document.get? message.keyField = some key
  /-- The document is in the index if it was accepted at first, or if the entity was not passed
  over. -/
  held_iff : operation.IsHeld second twice ↔
    operation.IsHeld first once ∨ ¬ message.PassesOver first once key
  /-- No message is forced that passes over the entity, and another document of the entity was
  accepted at first. -/
  accepted : message.PassesOver first once key → ¬ message.IsForced ∧
    ∃ other ∈ operations, other.document.get? message.keyField = some key ∧
      other.IsHeld first once ∧
      first.stored once other.action.index other.action.id ≠
        first.stored state other.action.index other.action.id

section Retry

variable {first second : Backend σ} {message : IndexMessage} {snapshot : Snapshot}
variable {indexer : LearningMaterialIndexer} {state once twice : σ}
variable {bulks bulks' : List (List BulkOperation)}

/-- What is pending when a message is handled again has no fault if some documents were rejected. -/
theorem Served.succeeds_again (exact : first.Exact) (never : second.NeverFails)
    (documents : second.documents = first.documents) (files : second.files = first.files)
    (fits : snapshot.Fits) (orderly : Orderly first state)
    (degraded : Served first message.target (message.pending snapshot indexer first state) state
      (.ok false) once bulks) {outcome : Except IndexingError Bool}
    (retried : Served second message.target (message.pending snapshot indexer second once) once
      outcome twice bulks') : outcome = .ok true := by
  obtain ⟨_, _, clean, _⟩ := degraded.sent_of_degraded
  refine retried.succeeds never fun subject member => clean subject ?_
  rw [IndexMessage.pending_of_eq documents files] at member
  exact IndexMessage.pending_subset
    (fun _ passed => degraded.passesOver exact fits orderly passed) member

/-- A message that is handled well again completes the entities that it does not pass over. -/
theorem Served.retryEnds (exact : first.Exact) (exact' : second.Exact) (never : second.NeverFails)
    (documents : second.documents = first.documents) (files : second.files = first.files)
    (fits : snapshot.Fits)
    (degraded : Served first message.target (message.pending snapshot indexer first state) state
      (.ok false) once bulks)
    (retried : Served second message.target (message.pending snapshot indexer second once) once
      (.ok true) twice bulks') {operations : List BulkOperation} (sent : operations ∈ bulks)
    {earlier later : List BulkOperation} {operation : BulkOperation}
    (split : operations = earlier ++ operation :: later)
    (last : ∀ other ∈ later, other.action ≠ operation.action) :
    ∃ key, RetryEnds first second message operations state once twice operation key := by
  obtain ⟨time, middle, _, same, after, rfl⟩ := degraded.sent_of_degraded
  obtain rfl := List.mem_singleton.mp sent
  obtain ⟨document, member, rfl, newest⟩ := latest_of_map_eq split last
  obtain ⟨subject, pending, own⟩ := List.mem_flatMap.mp member
  obtain ⟨among, unpassed⟩ := IndexMessage.mem_pending_iff.mp pending
  have about := (IndexMessage.isSound_of_mem_subjects fits among).keyed time document own
  have sound := message.isSound_of_mem_pending fits indexer second once
  -- What the second handling leaves under the id is what it writes there, or what it finds.
  have left := retried.lasting_eq exact' never sound document.id
  rw [Subject.written_of_clean retried.clean_of_success,
    IndexMessage.pending_of_eq documents files] at left
  have held {state : σ} : second.lasting state message.target document.id =
      first.lasting state message.target document.id :=
    congrArg (Option.map Fields.lasting)
      (by rw [Backend.stored, Backend.stored, documents])
  have rewritten := IndexMessage.latest_pending fits once among own ""
  refine ⟨subject.key, about, ?_, fun passed => ?_⟩
  · rw [BulkOperation.isHeld_index_iff, BulkOperation.isHeld_index_iff, left, held]
    by_cases passed : message.PassesOver first once subject.key
    · rw [rewritten.2 passed, Option.none_or]
      simp [passed]
    · rw [rewritten.1 passed, ← (IndexMessage.latest_pending fits state among own time).1 unpassed,
        newest, Option.some_or]
      simp [passed]
  · refine ⟨IndexMessage.not_isForced_of_passesOver passed, ?_⟩
    rw [after] at passed ⊢
    obtain ⟨other, inside, shown, accepted, changed⟩ := exists_accepted exact same unpassed passed
    exact ⟨_, List.mem_map_of_mem inside, shown, accepted, changed⟩

end Retry

namespace Handler

/-- After a message of which some documents were rejected was handled again by an engine that takes
all, every document that it had sent is in the index, except those rejected of an entity of which
another was accepted and which the message therefore passes over. -/
theorem retry_completes_unpassed {first second : Backend σ} (exact : first.Exact)
    (aggregates : first.Aggregates) (exact' : second.Exact) (aggregates' : second.Aggregates)
    (never : second.NeverFails) (documents : second.documents = first.documents)
    (files : second.files = first.files) (repository : Repository)
    (fits : ∀ snapshot, repository = .of snapshot → snapshot.Fits) (keepAlive : String)
    (uploadLimit : Nat) (message : IndexMessage) {state once twice : σ}
    {outcome : Except IndexingError Bool}
    (degraded : (handle ⟨repository, .new true keepAlive uploadLimit⟩ message).run first.serve
      state = (.ok false, once))
    (retried : (handle ⟨repository, .new true keepAlive uploadLimit⟩ message).run second.serve
      once = (outcome, twice)) :
    (Reachable first state → outcome = .ok true) ∧
      (outcome = .ok true →
        ∀ operations ∈ (handle ⟨repository, .new true keepAlive uploadLimit⟩ message).bulks
            first.serve state,
          ∀ earlier operation later, operations = earlier ++ operation :: later →
            (∀ other ∈ later, other.action ≠ operation.action) →
              ∃ key, RetryEnds first second message operations state once twice operation key) := by
  by_cases request : message.IsRequest
  · cases repository with
    | broken text =>
        rw [handle_broken request text] at degraded
        cases degraded
    | of snapshot =>
        have fits := fits snapshot rfl
        have initial := served_handle exact aggregates fits keepAlive uploadLimit request state
        have again := served_handle exact' aggregates' fits keepAlive uploadLimit request once
        rw [degraded] at initial
        rw [retried] at again
        refine ⟨fun reachable => initial.succeeds_again exact never documents files fits
          (reachable.orderly exact) again, ?_⟩
        rintro rfl operations sent earlier operation later split last
        exact initial.retryEnds exact exact' never documents files fits again sent split last
  · obtain ⟨_, _, removes⟩ :=
      exists_removal exact' never request repository keepAlive uploadLimit
    obtain ⟨_, ran, _⟩ := removes once
    refine ⟨fun _ => congrArg Prod.fst (retried.symm.trans ran), fun _ operations sent => ?_⟩
    rw [bulks_removal request repository keepAlive uploadLimit first state] at sent
    exact absurd sent List.not_mem_nil

namespace Sample

theorem degraded_request (rejects : BulkOperation → Bool)
    (refused : ∃ document ∈ anatomy.documents, rejects (.index request.target document) = true) :
    ∃ middle, counting.Later (.blank .epoch) middle ∧
      counting.SameDocuments (.blank .epoch) middle ∧
      handling.run (counting.rejecting rejects).serve (.blank .epoch) =
        (.ok false, (counting.serve (bulkRequest request.target (anatomy.documents.filter
          fun document => !rejects (.index request.target document))) middle).2) ∧
      handling.bulks (counting.rejecting rejects).serve (.blank .epoch) =
        [anatomy.documents.map (BulkOperation.index request.target)] := by
  have served := served_handle (exact_counting.rejecting rejects)
    (aggregates_counting.rejecting rejects) fits_school "1m" 8000000 isRequest_request
    (.blank .epoch)
  have pending : request.pending school (.new true "1m" 8000000) (counting.rejecting rejects)
      (.blank .epoch) = [.ofCourse anatomy] :=
    (IndexMessage.pending_of_eq rfl rfl _ _ _).trans (pending_blank _)
  rw [pending] at served
  obtain ⟨time, middle, later, same, ended, after, sent⟩ :=
    served.exists_sent (by simp [Subject.ofCourse]) (by simp [Subject.ofCourse, anatomy,
      CompositeCourse.documents])
  have whole : [Subject.ofCourse anatomy].flatMap (·.documents time) = anatomy.documents := by
    simp [Subject.ofCourse]
  rw [whole] at ended after sent
  refine ⟨middle, later.of_rejecting, same, ?_, sent⟩
  rw [Backend.serve_rejecting_bulkRequest] at after
  refine Prod.ext (ended.trans ?_) after
  obtain ⟨document, member, rejected⟩ := refused
  have failed : (anatomy.documents.map (BulkOperation.index request.target)).any rejects = true :=
    List.any_eq_true.mpr ⟨_, List.mem_map_of_mem member, rejected⟩
  change Except.ok (!((anatomy.documents.map (BulkOperation.index request.target)).any rejects)) = _
  rw [failed]
  rfl

theorem lasting_unsent {middle : Memory}
    (same : counting.SameDocuments (.blank .epoch) middle) {documents : List Document} {id : String}
    (unsent : ∀ document ∈ documents, document.id ≠ id) :
    counting.lasting (counting.serve (bulkRequest request.target documents) middle).2
      request.target id = none :=
  Backend.lasting_eq_of_stored_eq ((stored_bulk_of_unsent exact_counting unsent middle).trans
    (Backend.stored_eq_of_documents_eq (same request.target) id))

/-- If all sessions of the course are rejected at first, they are there after the request was
handled again. -/
theorem retry_completes_anatomy :
    ∃ once twice, handling.run (counting.rejecting fun _ => true).serve (.blank .epoch) =
        (.ok false, once) ∧
      handling.run counting.serve once = (.ok true, twice) ∧
      ∀ document ∈ anatomy.documents,
        (BulkOperation.index request.target document).IsHeld counting twice := by
  obtain ⟨middle, _, same, degraded, sent⟩ := degraded_request (fun _ => true)
    ⟨_, List.mem_cons_self, rfl⟩
  generalize reached : (counting.serve (bulkRequest request.target (anatomy.documents.filter
    fun _ => !true)) middle).2 = once at degraded
  have nothing (id : String) : counting.lasting once request.target id = none := by
    rw [← reached]
    exact lasting_unsent same (by simp)
  obtain ⟨succeeds, completes⟩ := retry_completes_unpassed (exact_counting.rejecting _)
    (aggregates_counting.rejecting _) exact_counting aggregates_counting neverFails_counting rfl rfl
    (.of school) (by rintro _ ⟨⟩; exact fits_school) "1m" 8000000 request degraded
    (Prod.eta (handling.run counting.serve once)).symm
  have well := succeeds (.empty fun _ => rfl)
  refine ⟨once, _, degraded, Prod.ext well rfl, fun document member => ?_⟩
  have distinct : (anatomy.documents.map (·.id)).Nodup := by
    simp [anatomy, CompositeCourse.documents, CompositeCourse.document,
      CompositeCourse.documentId_inj]
  obtain ⟨front, back, split⟩ := List.append_of_mem member
  rw [split, List.map_append, List.map_cons, List.nodup_middle] at distinct
  obtain ⟨key, ends⟩ := completes well _ (sent ▸ List.mem_singleton_self _)
    (front.map (BulkOperation.index request.target)) (.index request.target document)
    (back.map (BulkOperation.index request.target)) (by rw [split]; simp) (by
      intro other inside equal
      obtain ⟨twin, behind, rfl⟩ := List.mem_map.mp inside
      exact (List.nodup_cons.mp distinct).1 (List.mem_append_right _
        (List.mem_map.mpr ⟨twin, behind, congrArg BulkAction.id equal⟩)))
  refine ends.held_iff.mpr (.inr fun passed => ?_)
  obtain ⟨_, other, inside, _, held, _⟩ := ends.accepted passed
  obtain ⟨twin, _, rfl⟩ := List.mem_map.mp inside
  exact absurd (held.symm.trans (nothing _)) (Option.some_ne_none _)

/-- The engine rejects the second session of the course. -/
def rejectsEleven (operation : BulkOperation) : Bool :=
  operation.action.id == CompositeCourse.documentId 1 11

/-- The course is passed over as soon as its first session is in the index. -/
theorem passesOver_of_tenth {middle : Memory} (later : counting.Later (.blank .epoch) middle) :
    request.PassesOver counting (counting.serve
      (bulkRequest request.target [anatomy.document { id := 10 }]) middle).2 (.integer 1) := by
  obtain ⟨final, inside, _, fields, stored, alike, noted, _⟩ := exists_stored_bulk exact_counting
    neverFails_counting keepsTime_counting request.target
    (List.mem_singleton_self (anatomy.document { id := 10 })) middle
  obtain rfl := List.mem_singleton.mp inside
  refine IndexMessage.passesOver_courses_iff.mpr ⟨⟨_, fields⟩,
    Backend.mem_documents_of_stored exact_counting stored, ?_, ?_⟩
  · refine (Fields.get?_eq_of_lasting_eq request.keyField_ne_timeField alike).trans ?_
    exact CompositeCourse.get?_document_course anatomy _
  · exact (noted rfl).of_not_isBefore (keepsTime_counting.now_later later)

theorem idle_of_passesOver {once : Memory}
    (passed : request.PassesOver counting once (.integer 1)) :
    (handling.run counting.serve once).1 = .ok true ∧
      counting.SameDocuments once (handling.run counting.serve once).2 ∧
        handling.bulks counting.serve once = [] := by
  have served : Served counting request.target (request.pending school (.new true "1m" 8000000)
      counting once) once (handling.run counting.serve once).1 (handling.run counting.serve once).2
      (handling.bulks counting.serve once) :=
    served_handle exact_counting aggregates_counting fits_school "1m" 8000000 isRequest_request once
  have nothing : request.pending school (.new true "1m" 8000000) counting once = [] := by
    classical
    refine List.filter_eq_nil_iff.mpr fun subject member => ?_
    obtain rfl := List.mem_singleton.mp member
    rw [decide_eq_true_eq, not_not]
    exact passed
  rw [nothing] at served
  exact served.idle_of_nil

/-- If the first of two sessions is accepted and the second one rejected, the course is passed over
when the request is handled again, and the second session stays out of the index. -/
theorem exists_unretried :
    ((counting.rejecting rejectsEleven).Exact ∧ counting.Exact ∧ counting.NeverFails) ∧
    ∃ once twice, handling.run (counting.rejecting rejectsEleven).serve (.blank .epoch) =
        (.ok false, once) ∧
      handling.run counting.serve once = (.ok true, twice) ∧
      (∃ operations ∈ handling.bulks (counting.rejecting rejectsEleven).serve (.blank .epoch),
        ∃ operation ∈ operations, ¬ operation.IsHeld counting twice) ∧
      handling.bulks counting.serve once = [] := by
  let tenth := anatomy.document { id := 10 }
  let eleventh := anatomy.document { id := 11 }
  obtain ⟨middle, later, same, degraded, sent⟩ := degraded_request rejectsEleven
    ⟨eleventh, by simp [eleventh, anatomy, CompositeCourse.documents], by
      simp [rejectsEleven, BulkOperation.index, eleventh, anatomy, CompositeCourse.document]⟩
  have arrived : (anatomy.documents.filter fun document =>
      !rejectsEleven (.index request.target document)) = [tenth] := by
    simp [rejectsEleven, BulkOperation.index, tenth, anatomy, CompositeCourse.documents,
      CompositeCourse.document, CompositeCourse.documentId_inj]
  rw [arrived] at degraded
  generalize reached : (counting.serve (bulkRequest request.target [tenth]) middle).2 = once
    at degraded
  obtain ⟨well, kept, quiet⟩ := idle_of_passesOver (reached ▸ passesOver_of_tenth later)
  have absent : counting.lasting once request.target eleventh.id = none := by
    rw [← reached]
    exact lasting_unsent same (by simp [tenth, eleventh, anatomy, CompositeCourse.document,
      CompositeCourse.documentId_inj])
  refine ⟨⟨exact_counting.rejecting _, exact_counting, neverFails_counting⟩, once, _, degraded,
    Prod.ext well rfl, ⟨_, sent ▸ List.mem_singleton_self _,
    .index request.target eleventh, List.mem_map_of_mem ?_, fun held => ?_⟩, quiet⟩
  · simp [eleventh, anatomy, CompositeCourse.documents]
  · have unchanged := Backend.lasting_eq_of_stored_eq
      (Backend.stored_eq_of_documents_eq (kept request.target) eleventh.id)
    rw [BulkOperation.isHeld_index_iff, unchanged, absent] at held
    exact absurd held.symm (Option.some_ne_none _)

end Sample

end Handler

end LearningIndex
