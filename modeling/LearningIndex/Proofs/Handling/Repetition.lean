import LearningIndex.Proofs.Handling.Writing

/-!
# Handling a message again

A message may be delivered more than once.  Handling it again writes the same documents as before or
fewer of them, since what was passed over is passed over again, so nothing changes but times of
ingestion.  If the clock does not go back and documents get their time when they are written, then
what was written counts as recent, and nothing is written again unless that is forced.
-/

namespace LearningIndex

open Calendar (Instant)

variable {σ : Type} {backend : Backend σ}

namespace IndexMessage

/-- The stamp of a message, if it has one. -/
def freshness? : IndexMessage → Option Instant
  | indexCourses _ stamp | indexMeshDescriptors _ stamp => some stamp
  | indexLearningMaterials _ _ | deleteLearningMaterial _ | deleteCourse _ | deleteSession _
  | deleteMeshDescriptor _ => none

def IsForced : IndexMessage → Prop
  | indexLearningMaterials _ force => force = true
  | _ => False

theorem exists_skipQuery?_of_isRequest {message : IndexMessage} (request : message.IsRequest)
    (unforced : ¬ message.IsForced) : ∃ query, message.skipQuery? = some query := by
  cases message with
  | indexLearningMaterials ids force =>
      cases force with
      | true => exact absurd rfl unforced
      | false => exact ⟨_, rfl⟩
  | indexCourses ids stamp => exact ⟨_, rfl⟩
  | indexMeshDescriptors ids stamp => exact ⟨_, rfl⟩
  | _ => exact request.elim

end IndexMessage

/-- What is written under an id when a message is handled again was written under it before. -/
theorem Served.latest_again (exact : backend.Exact) {snapshot : Snapshot} (fits : snapshot.Fits)
    {indexer : LearningMaterialIndexer} {message : IndexMessage} {state once : σ}
    (orderly : Orderly backend state) {outcome : Except IndexingError Bool}
    {bulks : List (List BulkOperation)}
    (first : Served backend message.target (message.pending snapshot indexer backend state) state
      outcome once bulks) {id : String} {fields : Fields}
    (last : latest (Subject.written (message.pending snapshot indexer backend once)) id =
      some fields) :
    latest (Subject.written (message.pending snapshot indexer backend state)) id = some fields := by
  by_cases faulty : ∃ subject ∈ message.pending snapshot indexer backend state, subject.fault ≠ none
  · obtain ⟨subject, member, fault⟩ := faulty
    rwa [IndexMessage.pending_congr (first.same_of_fault member fault)] at last
  · have clean : ∀ subject ∈ message.pending snapshot indexer backend state,
        subject.fault = none := by
      simpa using faulty
    have monotone (key : Json) (passed : message.PassesOver backend state key) :=
      first.passesOver exact fits orderly passed
    have clean' : ∀ subject ∈ message.pending snapshot indexer backend once,
        subject.fault = none :=
      fun subject member => clean subject (IndexMessage.pending_subset monotone member)
    rw [Subject.written_of_clean clean'] at last
    obtain ⟨earlier, document, later, split, rfl, _⟩ := latest_eq_some_iff.mp last
    have member : document ∈ earlier ++ document :: later := by simp
    rw [← split] at member
    obtain ⟨subject, pending, own⟩ := List.mem_flatMap.mp member
    obtain ⟨among, unpassed⟩ := IndexMessage.mem_pending_iff.mp pending
    rw [(IndexMessage.latest_pending fits _ among own "").1 unpassed] at last
    rw [Subject.written_of_clean clean]
    exact ((IndexMessage.latest_pending fits _ among own "").1
      (mt (monotone subject.key) unpassed)).trans last

/-- A message that asks for entities leaves no other documents if it is handled again. -/
theorem Served.lasting_again (exact : backend.Exact) (never : backend.NeverFails)
    {snapshot : Snapshot} (fits : snapshot.Fits) {indexer : LearningMaterialIndexer}
    {message : IndexMessage} {state once twice : σ} (orderly : Orderly backend state)
    {outcome outcome' : Except IndexingError Bool} {bulks bulks' : List (List BulkOperation)}
    (first : Served backend message.target (message.pending snapshot indexer backend state) state
      outcome once bulks)
    (second : Served backend message.target (message.pending snapshot indexer backend once) once
      outcome' twice bulks') (index id : String) :
    backend.lasting twice index id = backend.lasting once index id := by
  have sound := message.isSound_of_mem_pending fits indexer backend
  by_cases own : message.target = index
  · subst own
    rw [second.lasting_eq exact never (sound once)]
    cases last : latest (Subject.written (message.pending snapshot indexer backend once)) id with
    | none => rw [Option.none_or]
    | some fields =>
        rw [Option.some_or, first.lasting_eq exact never (sound state),
          first.latest_again exact fits orderly last, Option.some_or]
  · exact Backend.lasting_eq_of_stored_eq
      (Backend.stored_eq_of_documents_eq (second.documents_of_ne exact own) id)

theorem Subject.IsSound.documents_eq_nil {subject : Subject} {index field : String}
    (sound : subject.IsSound index field) {time : String} (nothing : subject.documents time = [])
    (other : String) : subject.documents other = [] := by
  have alike := sound.timeless other time
  rw [nothing, List.map_nil] at alike
  exact List.map_eq_nil_iff.mp alike

/-- What a message writes that is not forced counts as recent by its stamp, if the clock had reached
the stamp before. -/
theorem isRecent_of_noted {message : IndexMessage} {snapshot : Snapshot}
    {indexer : LearningMaterialIndexer}
    {files : String → Except IndexingError (Option ByteString)} {subject : Subject}
    (member : subject ∈ message.subjects snapshot indexer files) {moment written : Instant}
    {document : Document} (own : document ∈ subject.documents moment.bound) {fields : Fields}
    (served : message.target = CurriculumIndexer.indexName →
      fields.IngestedSince Fields.timeField written)
    (brought : message.target ≠ CurriculumIndexer.indexName →
      fields.get? Fields.timeField = document.get? Fields.timeField)
    (due : ∀ stamp, message.freshness? = some stamp →
      moment.isBefore stamp = false ∧ written.isBefore stamp = false)
    {query : SkipQuery} (asked : message.skipQuery? = some query) :
    fields.IsRecent query.since := by
  cases message with
  | indexLearningMaterials ids force =>
      cases force with
      | true => cases asked
      | false =>
          obtain rfl := Option.some.inj asked
          trivial
  | indexCourses ids stamp =>
      obtain rfl := Option.some.inj asked
      exact (served rfl).of_not_isBefore (due stamp rfl).2
  | indexMeshDescriptors ids stamp =>
      obtain rfl := Option.some.inj asked
      obtain ⟨descriptor, _, rfl⟩ := List.mem_map.mp member
      obtain rfl := List.mem_singleton.mp own
      rw [MeshDescriptor.get?_document_time] at brought
      have elsewhere : MeshIndexer.indexName ≠ CurriculumIndexer.indexName := by decide
      exact ⟨_, _, brought elsewhere, Calendar.instant?_bound moment,
        Calendar.Instant.wholeSecond_isBefore (due stamp rfl).1⟩
  | _ => cases asked

theorem exists_stored_bulk (exact : backend.Exact) (never : backend.NeverFails)
    (keeps : backend.KeepsTime) (index : String) {documents : List Document} {document : Document}
    (member : document ∈ documents) (state : σ) :
    ∃ final ∈ documents, final.id = document.id ∧
      ∃ fields, backend.stored (backend.serve (bulkRequest index documents) state).2 index
          final.id = some fields ∧ fields.lasting = final.source.lasting ∧
        (index = CurriculumIndexer.indexName →
          fields.IngestedSince Fields.timeField (backend.now state)) ∧
        (index ≠ CurriculumIndexer.indexName →
          fields.get? Fields.timeField = final.get? Fields.timeField) := by
  have sent : latest documents document.id ≠ none :=
    fun nothing => latest_eq_none_iff.mp nothing document member rfl
  obtain ⟨_, last⟩ := Option.ne_none_iff_exists'.mp sent
  obtain ⟨front, final, back, rfl, same, _, others⟩ := latest_eq_some_iff.mp last
  obtain ⟨reply, answered, clean⟩ :=
    never.bulk ((front ++ final :: back).map (BulkOperation.index index)) state
  have order : (front ++ final :: back).map (BulkOperation.index index) =
      front.map (BulkOperation.index index) ++ BulkOperation.index index final ::
        back.map (BulkOperation.index index) := by simp
  have apart : ∀ operation ∈ back.map (BulkOperation.index index),
      operation.action ≠ (BulkOperation.index index final).action := by
    intro operation inside equal
    obtain ⟨twin, behind, rfl⟩ := List.mem_map.mp inside
    exact others twin behind ((congrArg BulkAction.id equal).trans same)
  obtain ⟨fields, stored, served, brought⟩ :=
    keeps.noted _ state reply answered clean _ _ _ order apart
  have lasting := exact.written _ state reply answered clean _ _ _ order apart
  refine ⟨final, by simp, same, fields, stored, ?_, served, brought⟩
  refine Option.some.inj (Eq.trans ?_ lasting)
  rw [Backend.lasting]
  exact (congrArg (Option.map Fields.lasting) stored).symm

/-- After a message that is not forced was handled, it passes over all that it has written. -/
theorem Served.passesOver_of_documents (exact : backend.Exact) (never : backend.NeverFails)
    (keeps : backend.KeepsTime) {snapshot : Snapshot} (fits : snapshot.Fits)
    {indexer : LearningMaterialIndexer} {message : IndexMessage} (request : message.IsRequest)
    (unforced : ¬ message.IsForced) {state after : σ}
    (due : ∀ stamp, message.freshness? = some stamp → (backend.now state).isBefore stamp = false)
    {outcome : Except IndexingError Bool} {bulks : List (List BulkOperation)}
    (served : Served backend message.target (message.pending snapshot indexer backend state) state
      outcome after bulks)
    (clean : ∀ subject ∈ message.pending snapshot indexer backend state, subject.fault = none)
    {subject : Subject} (member : subject ∈ message.pending snapshot indexer backend state)
    {time : String} (filled : subject.documents time ≠ []) :
    message.PassesOver backend after subject.key := by
  have sound := message.isSound_of_mem_pending fits indexer backend state
  cases served with
  | faulty failed _ =>
      obtain ⟨other, inside, fault⟩ := Subject.exists_fault_of_gather failed
      exact absurd (clean other inside) fault
  | idle nothing _ =>
      have empty := (Subject.gather_eq_ok_iff.mp nothing).2.symm
      exact absurd ((sound subject member).documents_eq_nil
        (List.flatMap_eq_nil_iff.mp empty subject member) time) filled
  | @sent moment middle documents later later' built _ same =>
      obtain ⟨_, rfl⟩ := Subject.gather_eq_ok_iff.mp built
      let bound := (backend.now moment).bound
      obtain ⟨document, own⟩ : ∃ document, document ∈ subject.documents bound :=
        List.exists_mem_of_ne_nil _ fun nothing =>
          filled ((sound subject member).documents_eq_nil nothing time)
      have among : document ∈ (message.pending snapshot indexer backend state).flatMap
          (·.documents bound) := List.mem_flatMap.mpr ⟨subject, member, own⟩
      -- Another document may be the last with this id, but it is about the same entity.
      obtain ⟨final, sent, alike, fields, stored, lasting, served, brought⟩ :=
        exists_stored_bulk exact never keeps message.target among middle
      obtain ⟨other, pending, written⟩ := List.mem_flatMap.mp sent
      obtain ⟨query, asked⟩ := IndexMessage.exists_skipQuery?_of_isRequest request unforced
      obtain ⟨inIndex, inField⟩ := IndexMessage.skipQuery?_about asked
      refine ⟨query, asked, ⟨final.id, fields⟩, ?_, ?_, ?_⟩
      · rw [inIndex]
        exact Backend.mem_documents_of_stored exact stored
      · rw [inField]
        refine (Fields.get?_eq_of_lasting_eq message.keyField_ne_timeField lasting).trans ?_
        refine (message.keyField_eq_of_id_eq ((sound other pending).belongs bound final written)
          ((sound subject member).belongs bound document own) alike).trans ?_
        exact (sound subject member).keyed bound document own
      · refine isRecent_of_noted (IndexMessage.mem_pending_iff.mp pending).1 written served brought
          (fun stamp stamped => ⟨?_, ?_⟩) asked
        · exact Calendar.Instant.isBefore_eq_false_trans (due stamp stamped)
            (keeps.now_later later)
        · exact Calendar.Instant.isBefore_eq_false_trans (due stamp stamped)
            (keeps.now_later later')

/-- Handling a message again that is not forced sends nothing. -/
theorem Served.quiet_again (exact : backend.Exact) (never : backend.NeverFails)
    (keeps : backend.KeepsTime) {snapshot : Snapshot} (fits : snapshot.Fits)
    {indexer : LearningMaterialIndexer} {message : IndexMessage} (request : message.IsRequest)
    (unforced : ¬ message.IsForced) {state once twice : σ} (orderly : Orderly backend state)
    (due : ∀ stamp, message.freshness? = some stamp → (backend.now state).isBefore stamp = false)
    {outcome outcome' : Except IndexingError Bool} {bulks bulks' : List (List BulkOperation)}
    (first : Served backend message.target (message.pending snapshot indexer backend state) state
      outcome once bulks)
    (second : Served backend message.target (message.pending snapshot indexer backend once) once
      outcome' twice bulks') : bulks' = [] := by
  cases second with
  | faulty _ _ => rfl
  | idle _ _ => rfl
  | sent _ _ built filled _ =>
      obtain ⟨unharmed, rfl⟩ := Subject.gather_eq_ok_iff.mp built
      obtain ⟨document, member⟩ := List.exists_mem_of_ne_nil _ filled
      obtain ⟨subject, pending, own⟩ := List.mem_flatMap.mp member
      have clean : ∀ subject ∈ message.pending snapshot indexer backend state,
          subject.fault = none := by
        intro other among
        by_contra fault
        rw [IndexMessage.pending_congr (first.same_of_fault among fault)] at unharmed
        exact fault (unharmed other among)
      have monotone (key : Json) (passed : message.PassesOver backend state key) :=
        first.passesOver exact fits orderly passed
      have earlier := IndexMessage.pending_subset monotone pending
      have passed := first.passesOver_of_documents exact never keeps fits request unforced due clean
        earlier (List.ne_nil_of_mem own)
      exact absurd passed (IndexMessage.mem_pending_iff.mp pending).2

namespace Handler

theorem exists_handle_eq_deleteWhere {message : IndexMessage} (removal : ¬ message.IsRequest)
    (repository : Repository) (keepAlive : String) (uploadLimit : Nat) :
    ∃ field value, handle ⟨repository, .new true keepAlive uploadLimit⟩ message =
      Catalog.deleteWhere ⟨message.target, keepAlive, true⟩ field value := by
  cases message with
  | deleteLearningMaterial id => exact ⟨_, _, rfl⟩
  | deleteCourse id => exact ⟨_, _, rfl⟩
  | deleteSession id => exact ⟨_, _, rfl⟩
  | deleteMeshDescriptor id => exact ⟨_, _, rfl⟩
  | _ => exact absurd trivial removal

theorem handle_broken {message : IndexMessage} (request : message.IsRequest) (text : String)
    (indexers : Indexers) :
    handle ⟨.broken text, indexers⟩ message = .done (.error (.repository text)) := by
  cases message with
  | indexLearningMaterials ids force => rfl
  | indexCourses ids stamp => rfl
  | indexMeshDescriptors ids stamp => rfl
  | _ => exact request.elim

end Handler

theorem Catalog.bulks_deleteWhere {catalog : Catalog} (enabled : catalog.enabled = true)
    (field : String) (value : Json) (state : σ) :
    (catalog.deleteWhere field value).bulks backend.serve state = [] := by
  let deletion : Service.Request := .engine (.deleteByQuery catalog.index (.term field value))
  have sent : catalog.deleteWhere field value = (Task.engine
      (.deleteByQuery catalog.index (.term field value))).andThen fun reply =>
        .done (.ok reply.isClean) := by
    simp [deleteWhere, requireEngine_of_enabled enabled]
  rw [sent]
  change (Program.transcript _ ((Program.done (Except.mapError IndexingError.engine
    (backend.serve deletion state).1)).andThen _) _).filterMap _ = _
  cases (backend.serve deletion state).1 <;> rfl

/-- What was removed once is not there to be removed again. -/
theorem Effect.Applied.lasting_again {index field : String} {value : Json} {state once twice : σ}
    (first : (Effect.remove index field value).Applied backend state once)
    (second : (Effect.remove index field value).Applied backend once twice) (name id : String) :
    backend.lasting twice name id = backend.lasting once name id := by
  have unwritten : ¬ (Effect.remove index field value).Writes name id := fun writes => writes
  refine Backend.lasting_eq_of_stored_eq (second.kept name id unwritten ?_)
  rintro fields present ⟨rfl, valued⟩
  by_cases removal : ∃ others, backend.stored state index id = some others ∧
      others.get? field = some value
  · obtain ⟨others, before, shown⟩ := removal
    rw [first.removed index id others before ⟨rfl, shown⟩] at present
    cases present
  · have kept := first.kept index id unwritten fun others before removes =>
      removal ⟨others, before, removes.2⟩
    exact removal ⟨fields, kept.symm.trans present, valued⟩

namespace Handler

section Removal

variable {message : IndexMessage}

theorem bulks_removal (removal : ¬ message.IsRequest) (repository : Repository) (keepAlive : String)
    (uploadLimit : Nat) (backend : Backend σ) (state : σ) :
    (handle ⟨repository, .new true keepAlive uploadLimit⟩ message).bulks backend.serve state =
      [] := by
  obtain ⟨field, value, same⟩ :=
    exists_handle_eq_deleteWhere removal repository keepAlive uploadLimit
  rw [same]
  exact Catalog.bulks_deleteWhere rfl field value state

theorem exists_removal (exact : backend.Exact) (never : backend.NeverFails)
    (removal : ¬ message.IsRequest) (repository : Repository) (keepAlive : String)
    (uploadLimit : Nat) :
    ∃ field value, ∀ state, ∃ after,
      (handle ⟨repository, .new true keepAlive uploadLimit⟩ message).run backend.serve state =
          (.ok true, after) ∧
        (Effect.remove message.target field value).Applied backend state after := by
  obtain ⟨field, value, same⟩ :=
    exists_handle_eq_deleteWhere removal repository keepAlive uploadLimit
  refine ⟨field, value, fun state => ?_⟩
  have enabled : (Catalog.mk message.target keepAlive true).enabled = true := rfl
  have ends := (Catalog.deleteWhere_ensures exact enabled field value state).run
    backend.sameDocuments_refl
  rw [same]
  exact ⟨_, Prod.ext (ends.succeeds never) rfl, ends.applied trivial (ends.succeeds never)⟩

end Removal

/-- Handling a message a second time changes nothing but times of ingestion; and unless the message
is forced it sends no document, if the clock has reached the stamp and keeps time. -/
theorem handle_again_changes_nothing (exact : backend.Exact) (never : backend.NeverFails)
    (aggregates : backend.Aggregates) {state : σ} (reachable : Reachable backend state)
    (repository : Repository) (fits : ∀ snapshot, repository = .of snapshot → snapshot.Fits)
    (keepAlive : String) (uploadLimit : Nat) (message : IndexMessage) :
    let handling := handle ⟨repository, .new true keepAlive uploadLimit⟩ message
    let once := (handling.run backend.serve state).2
    let twice := (handling.run backend.serve once).2
    (∀ index id, backend.lasting twice index id = backend.lasting once index id) ∧
      (¬ message.IsForced → backend.KeepsTime →
        (∀ stamp, message.freshness? = some stamp → (backend.now state).isBefore stamp = false) →
          handling.bulks backend.serve once = []) := by
  intro handling once twice
  by_cases request : message.IsRequest
  · cases repository with
    | of snapshot =>
        have fits := fits snapshot rfl
        have orderly := reachable.orderly exact
        have first := served_handle exact aggregates fits keepAlive uploadLimit request state
        have second := served_handle exact aggregates fits keepAlive uploadLimit request once
        exact ⟨first.lasting_again exact never fits orderly second, fun unforced keeps due =>
          first.quiet_again exact never keeps fits request unforced orderly due second⟩
    | broken text =>
        have nothing : handling = .done (.error (.repository text)) :=
          handle_broken request text _
        have same : twice = once := by
          simp only [twice, nothing, Program.run]
        rw [same, nothing]
        exact ⟨fun _ _ => rfl, fun _ _ _ => rfl⟩
  · obtain ⟨field, value, removes⟩ :=
      exists_removal exact never request repository keepAlive uploadLimit
    have removed (state : σ) : (Effect.remove message.target field value).Applied backend state
        (handling.run backend.serve state).2 := by
      obtain ⟨after, ran, applied⟩ := removes state
      exact (congrArg Prod.snd ran).symm ▸ applied
    exact ⟨(removed state).lasting_again (removed once), fun _ _ _ =>
      bulks_removal request repository keepAlive uploadLimit backend once⟩

namespace Sample

/-- A course with two sessions. -/
def anatomy : CompositeCourse := ⟨{ id := 1, title := "Anatomy" }, [{ id := 10 }, { id := 11 }]⟩

def school : Snapshot where
  courses := [anatomy]

/-- The request for the course, with the beginning of 1970 as its stamp. -/
def request : IndexMessage := .indexCourses [1] .epoch

def handling : Task Bool :=
  handle ⟨.of school, .new true "1m" 8000000⟩ request

noncomputable def counting : Backend Memory :=
  Memory.backend fun _ => .ok none

theorem fits_school : school.Fits :=
  ⟨by decide, by decide, by decide⟩

theorem exact_counting : counting.Exact := Memory.exact_backend _

theorem neverFails_counting : counting.NeverFails := Memory.neverFails_backend _

theorem aggregates_counting : counting.Aggregates := Memory.aggregates_backend _

theorem keepsTime_counting : counting.KeepsTime := Memory.keepsTime_backend _

theorem isRequest_request : request.IsRequest := trivial

theorem pending_blank (indexer : LearningMaterialIndexer) :
    request.pending school indexer counting (.blank .epoch) = [.ofCourse anatomy] := by
  classical
  refine List.filter_eq_self.mpr fun subject _ => decide_eq_true ?_
  rintro ⟨query, _, document, present, _⟩
  exact absurd present List.not_mem_nil

/-- The request is handled once and a second time at the beginning of 1970. -/
theorem handle_again_sends_nothing :
    (counting.Exact ∧ counting.NeverFails ∧ counting.Aggregates ∧ counting.KeepsTime ∧
      Reachable counting (.blank .epoch) ∧ school.Fits ∧ ¬ request.IsForced) ∧
    handling.bulks counting.serve (.blank .epoch) ≠ [] ∧
      handling.bulks counting.serve (handling.run counting.serve (.blank .epoch)).2 = [] := by
  have reachable : Reachable counting (.blank .epoch) := .empty fun _ => rfl
  refine ⟨⟨exact_counting, neverFails_counting, aggregates_counting, keepsTime_counting, reachable,
    fits_school, fun forced => forced⟩, ?_, ?_⟩
  · have served := served_handle exact_counting aggregates_counting fits_school "1m" 8000000
      isRequest_request (.blank .epoch)
    rw [pending_blank] at served
    obtain ⟨_, _, _, _, _, _, sent⟩ :=
      served.exists_sent (by simp [Subject.ofCourse]) (by simp [Subject.ofCourse, anatomy,
        CompositeCourse.documents])
    exact fun nothing => absurd (sent.symm.trans nothing) (List.cons_ne_nil _ _)
  · obtain ⟨_, quiet⟩ := handle_again_changes_nothing exact_counting neverFails_counting
      aggregates_counting reachable (.of school) (by rintro _ ⟨⟩; exact fits_school) "1m" 8000000
      request
    exact quiet (fun forced => forced) keepsTime_counting (by rintro _ ⟨⟩; decide)

end Sample

end Handler

end LearningIndex
