import LearningIndex.Proofs.Backend.Memory
import LearningIndex.Proofs.Calendar.Bound
import LearningIndex.Proofs.Contents
import LearningIndex.Proofs.Reconciliation.Execution

/-!
# From one run to the next

Over an engine that never fails a run can come to an end at which all messages went well.  At every
moment of an execution the indexes hold what handled messages leave, so that what is known of such
contents holds for the next run too, over whatever snapshot.
-/

namespace LearningIndex

open Calendar (Instant)

section Asked

/-- Searches for candidates may find nothing. -/
theorem Catalog.exists_yields_foundIn {κ : Type} [Key κ] (catalog : Catalog) (field : String)
    (since : Option (String × Instant)) (portions : List (List κ)) :
    ∃ trace, (catalog.foundIn field since portions).Yields trace (.ok []) := by
  induction portions with
  | nil => exact ⟨[], .done _⟩
  | cons portion rest ih =>
      obtain ⟨trace, later⟩ := ih
      have nothing : aggregationKeys (κ := κ) (Memory.buckets field []) field = .ok [] := by
        obtain ⟨buckets, found, shown⟩ := Memory.reports_buckets field []
        obtain rfl := List.forall₂_nil_right_iff.mp shown
        rw [aggregationKeys, found]
        rfl
      let search : Service.Request := .engine
        (.search ⟨catalog.index, .indexed field (portion.map Key.toJson) since, none⟩)
      let answer : Except EngineError Json := .ok (Memory.buckets field [])
      refine ⟨⟨search, answer⟩ :: (trace ++ []), .ask _ ?_⟩
      change Program.Yields ((Program.ofExcept ((aggregationKeys (Memory.buckets field [])
        field).mapError .engine)).andThen fun found =>
          (catalog.foundIn field since rest).andThen fun others =>
            .done (.ok (found ++ others))) (trace ++ []) _
      rw [nothing]
      exact later.andThen (.done _)

theorem Catalog.asks_write {catalog : Catalog} (enabled : catalog.enabled = true)
    {documents : List Document} (filled : documents ≠ []) :
    (catalog.write documents).Asks (.engine (.bulk (catalog.operations documents))) := by
  rw [write, requireEngine, if_pos enabled]
  change Program.Asks (if documents.isEmpty then _ else _) _
  rw [if_neg (by simpa using filled)]
  exact .here _ _

theorem CurriculumIndexer.asks_bulk (keepAlive : String) {courses : List CompositeCourse}
    (nonempty : courses.flatMap (·.documents) ≠ []) (stamp : Instant) :
    ((CurriculumIndexer.new true keepAlive).index (courses.map .course) stamp).Asks
      (.engine (.bulk ((courses.flatMap (·.documents)).map (.index indexName)))) := by
  have accepted : expectAll .course Entity.course? (courses.map .course) = .ok courses :=
    expectAll_map Entity.course (fun _ => rfl) courses
  obtain ⟨trace, found⟩ := Catalog.exists_yields_foundIn
    (CurriculumIndexer.new true keepAlive).catalog courseIdField (some (ingestTimeField, stamp))
    (batches Query.answerLimit (courses.map (·.course.id)))
  let skip : SkipSet Int := .ofCandidates (courses.map (·.course.id)) []
  have outdated : ((CurriculumIndexer.new true keepAlive).outdated (courses.map .course)
      stamp).Yields ((trace ++ []) ++ [])
        (.ok (courses.filter fun composite => !skip.contains composite.course.id)) := by
    rw [CurriculumIndexer.outdated, accepted]
    exact (found.andThen (.done _)).andThen (.done _)
  rw [filter_unskipped (fun _ _ => rfl)] at outdated
  exact outdated.asks_andThen (Catalog.asks_write rfl nonempty)

/-- A message asks that the documents of all its courses are written. -/
theorem Handler.asks_bulk (snapshot : Snapshot) (keepAlive : String) (uploadLimit : Nat)
    {ids : List Int} (nonempty : snapshot.courseDocuments ids ≠ []) (stamp : Instant) :
    (Handler.handle ⟨.of snapshot, .new true keepAlive uploadLimit⟩ (.indexCourses ids stamp)).Asks
      (.engine (.bulk ((snapshot.courseDocuments ids).map
        (.index CurriculumIndexer.indexName)))) :=
  CurriculumIndexer.asks_bulk keepAlive nonempty stamp

namespace LearningMaterialIndexer

variable {files : String → Except IndexingError (Option ByteString)}

theorem exists_yields_fileText {material : LearningMaterial} {text : ByteString}
    (read : textOf files material = .ok text) :
    ∃ trace, (fileText material).Yields trace (.ok text) := by
  unfold fileText
  cases named : material.relativePath with
  | none =>
      simp only [textOf, named] at read
      obtain rfl := Except.ok.inj read
      exact ⟨[], .done _⟩
  | some path =>
      simp only [textOf, named] at read
      cases found : files (textPath path) with
      | error error => simp [found, Except.map] at read
      | ok contents =>
          rw [found] at read
          obtain rfl := Except.ok.inj read
          let reply : Except IndexingError (Option ByteString) := .ok contents
          exact ⟨_, Program.yields_ask_iff.mpr ⟨reply, [], rfl, .done _⟩⟩

theorem exists_yields_documentsOf {indexer : LearningMaterialIndexer}
    {materials : List LearningMaterial} {documents : List Document}
    (built : documentsWith files indexer materials = .ok documents) :
    ∃ trace, (indexer.documentsOf materials).Yields trace (.ok documents) := by
  induction materials generalizing documents with
  | nil =>
      obtain rfl := Except.ok.inj built
      exact ⟨[], .done _⟩
  | cons material rest ih =>
      obtain ⟨text, others, read, later, rfl⟩ := documentsWith_cons built
      obtain ⟨first, own⟩ := exists_yields_fileText read
      obtain ⟨trace, run⟩ := ih later
      exact ⟨first ++ (trace ++ []), own.andThen (run.andThen (.done _))⟩

theorem asks_bulk {snapshot : Snapshot} (keepAlive : String) (uploadLimit : Nat) {ids : List Int}
    {documents : List Document}
    (built : documentsWith files (.new true keepAlive uploadLimit)
      (snapshot.findLearningMaterials ids) = .ok documents) (nonempty : documents ≠ []) :
    (Handler.handle ⟨.of snapshot, .new true keepAlive uploadLimit⟩
      (.indexLearningMaterials ids true)).Asks
        (.engine (.bulk (documents.map (.index indexName)))) := by
  let indexer := LearningMaterialIndexer.new true keepAlive uploadLimit
  let materials := snapshot.findLearningMaterials ids
  have accepted : expectAll .learningMaterial Entity.learningMaterial?
      (materials.map .learningMaterial) = .ok materials :=
    expectAll_map Entity.learningMaterial (fun _ => rfl) materials
  have unskipped : (materials.filter fun material =>
      !(SkipSet.empty : SkipSet Int).contains material.id) = materials :=
    filter_unskipped fun _ _ => rfl
  obtain ⟨trace, run⟩ := exists_yields_documentsOf built
  change (indexer.index (materials.map .learningMaterial) true).Asks _
  rw [index, accepted]
  change ((indexer.documentsOf (materials.filter fun material =>
    !(SkipSet.empty : SkipSet Int).contains material.id)).andThen fun documents =>
      indexer.catalog.write documents).Asks _
  rw [unskipped]
  exact run.asks_andThen (Catalog.asks_write rfl nonempty)

end LearningMaterialIndexer

theorem MeshIndexer.asks_bulk {snapshot : Snapshot} (keepAlive : String) (uploadLimit : Nat)
    {ids : List String} (nonempty : snapshot.findMeshDescriptors ids ≠ []) (stamp time : Instant) :
    (Handler.handle ⟨.of snapshot, .new true keepAlive uploadLimit⟩
      (.indexMeshDescriptors ids stamp)).Asks
        (.engine (.bulk (((snapshot.findMeshDescriptors ids).map (·.document time.bound)).map
          (.index indexName)))) := by
  let catalog := (MeshIndexer.new true keepAlive).catalog
  let descriptors := snapshot.findMeshDescriptors ids
  let skip : SkipSet String := .ofCandidates (descriptors.map (·.id)) []
  have accepted : expectAll .meshDescriptor Entity.meshDescriptor?
      (descriptors.map .meshDescriptor) = .ok descriptors :=
    expectAll_map Entity.meshDescriptor (fun _ => rfl) descriptors
  obtain ⟨trace, found⟩ := Catalog.exists_yields_foundIn catalog idField
    (some (ingestTimeField, stamp)) (batches Query.answerLimit (descriptors.map (·.id)))
  have skipped : (catalog.skipSet idField (descriptors.map (·.id))
      (some (ingestTimeField, stamp))).Yields (trace ++ []) (.ok skip) :=
    found.andThen (.done _)
  have unskipped : (descriptors.filter fun descriptor => !skip.contains descriptor.id) =
      descriptors := filter_unskipped fun _ _ => rfl
  change ((MeshIndexer.new true keepAlive).index (descriptors.map .meshDescriptor) stamp).Asks _
  rw [index, accepted]
  refine skipped.asks_andThen (.later time ?_)
  change (catalog.write ((descriptors.filter fun descriptor =>
    !skip.contains descriptor.id).map (·.document time.bound))).Asks _
  rw [unskipped]
  exact Catalog.asks_write rfl (by simpa using nonempty)

end Asked

namespace Memory

/-- The courses of a snapshot were indexed at one time, and now it is another. -/
def holding (snapshot : Snapshot) (before now : Instant) : Memory :=
  (((snapshot.courseDocuments snapshot.courseIds).map
    (.index CurriculumIndexer.indexName)).foldl write (blank before)).wait now

variable (files : String → Except IndexingError (Option ByteString))
variable {snapshot : Snapshot} {before now : Instant}

theorem reachable_holding (fits : snapshot.Fits)
    (nonempty : snapshot.courseDocuments snapshot.courseIds ≠ []) :
    Reachable (backend files) (holding snapshot before now) := by
  have nothing : Reachable (backend files) (blank before) := .empty fun _ => rfl
  exact (nothing.handling fits "" 0 _ (Handler.asks_bulk snapshot "" 0 nonempty before)).idle
    fun _ => rfl

/-- What is held was written for a course of the snapshot, and it has the time of that. -/
theorem exists_of_mem_holding {document : Document} {index : String}
    (member : document ∈ (backend files).documents (holding snapshot before now) index) :
    ∃ source ∈ snapshot.courseDocuments snapshot.courseIds, document.id = source.id ∧
      document.source = source.source.insert Fields.timeField (.string before.bound) := by
  rcases mem_shelf_writes member with absent | ⟨operation, inside, action, fields⟩
  · exact absurd absent List.not_mem_nil
  · obtain ⟨source, among, rfl⟩ := List.mem_map.mp inside
    refine ⟨source, among, (congrArg BulkAction.id action).symm, ?_⟩
    exact fields.trans (if_pos rfl)

/-- Nothing that is held was ingested in a later second than it was written. -/
theorem not_ingestedSince_of_mem_holding
    (earlier : before.wholeSecond.isBefore now.wholeSecond = true) {document : Document}
    {index : String}
    (member : document ∈ (backend files).documents (holding snapshot before now) index) :
    ¬ document.source.IngestedSince Fields.timeField now := by
  obtain ⟨source, _, _, fields⟩ := exists_of_mem_holding files member
  rw [fields, Fields.ingestedSince_insert_bound_iff, earlier]
  decide

theorem ingestedBefore_holding (earlier : before.wholeSecond.isBefore now.wholeSecond = true) :
    Reconciliation.IngestedBefore (backend files) (holding snapshot before now) now :=
  fun _ => not_ingestedSince_of_mem_holding files earlier

theorem lasting_holding (distinct : snapshot.DistinctIn CurriculumIndexer.indexName)
    {document : Document} (member : document ∈ snapshot.courseDocuments snapshot.courseIds) :
    (backend files).lasting (holding snapshot before now) CurriculumIndexer.indexName document.id =
      some document.source.lasting := by
  have apart := Snapshot.nodup_courseDocuments distinct snapshot.courseIds
  unfold holding
  obtain ⟨earlier, later, same⟩ := List.append_of_mem member
  rw [same] at apart ⊢
  rw [List.map_append, List.map_cons] at apart ⊢
  refine lasting_writes files _ (.index CurriculumIndexer.indexName document) ?_ (blank before)
  intro other among twin
  obtain ⟨source, inside, rfl⟩ := List.mem_map.mp among
  have notLater := (List.nodup_cons.mp (List.nodup_append.mp apart).2.1).1
  exact notLater (List.mem_map.mpr ⟨source, inside, congrArg BulkAction.id twin⟩)

theorem length_holding_le (index : String) :
    ((backend files).documents (holding snapshot before now) index).length ≤
      (snapshot.courseDocuments snapshot.courseIds).length := by
  have written := length_shelf_writes_le ((snapshot.courseDocuments snapshot.courseIds).map
    (.index CurriculumIndexer.indexName)) (blank before) index
  rw [List.length_map] at written
  exact written.trans (Nat.zero_add _).le

end Memory

namespace Installation

section Runs

variable {σ : Type} {installation : Installation σ} {begun : σ}

/-- Without failures some execution ends well, on indexes that can be listed. -/
theorem exists_success (exact : installation.backend.Exact)
    (never : installation.backend.NeverFails)
    (readable : ∀ path, ∃ text, installation.backend.files path = .ok text)
    (fits : installation.snapshot.Fits)
    (listable : ∀ index, (installation.backend.documents begun index).length ≤
      Catalog.walkLimit Catalog.pageLimit) :
    ∃ last report, installation.Reaches begun last ∧ last.Ends (.ok report) ∧
      ∀ entry ∈ last.handled, entry.2 = .ok true := by
  obtain ⟨last, outcome, reached, ends⟩ := Interplay.exists_reaches_end installation.backend.serve
    installation.handler.handle
    (.start begun (Reconciliation.run installation.handler .incremental))
  have concluded : installation.Concluded begun last outcome :=
    Reaches.concluded exact fits reached ends
  obtain ⟨report, rfl⟩ := concluded.run.isOk never listable
  exact ⟨last, report, reached, ends, concluded.succeeded never readable⟩

/-- What handled messages left stays of that kind while a run and its worker go on. -/
theorem Reaches.reachable (exact : installation.backend.Exact) (fits : installation.snapshot.Fits)
    (reachable : Reachable installation.backend begun)
    {state : Interplay σ ReconciliationReport} (reached : installation.Reaches begun state) :
    Reachable installation.backend state.world := by
  induction reached with
  | refl => exact reachable
  | tail earlier step ih =>
      have loyal := Interplay.Reaches.loyal earlier (by rintro _ _ ⟨⟩)
      have before := Reaches.coherent exact fits earlier
      cases step with
      | request world request next dispatched waiting inHand handled =>
          rcases before with begins | coherent
          · obtain ⟨rfl, asked, _⟩ := Interplay.mk.inj begins
            rw [run_eq] at asked
            obtain ⟨⟨⟩, _⟩ := Program.ask.inj asked
            exact ih.idle (exact.sameDocuments .clock (fun _ => id) world)
          · obtain ⟨kept, _⟩ :=
              coherent.running _ (Producer.bystanding_refl installation.backend _)
            exact ih.idle kept.documents
      | work world producer dispatched waiting message request next handled =>
          exact ih.handling fits installation.keepAlive installation.uploadLimit message
            (loyal message (.ask request next) rfl request (.here _ _))
      | _ => exact ih

end Runs

namespace Sample

/-- Two courses with a session each. -/
def earlier : Snapshot where
  courses := [
    ⟨{ id := 1, title := "Anatomy" }, [{ id := 10 }]⟩,
    ⟨{ id := 2, title := "Physiology" }, [{ id := 20 }]⟩]

def noon : Instant :=
  { Instant.epoch with hour := 12, hour_lt := by decide }

/-- The two courses were indexed at midnight, and now it is noon. -/
def begun : Memory :=
  .holding earlier .epoch noon

/-- A snapshot and the engine in memory, without any file. -/
noncomputable def system (snapshot : Snapshot) : Installation Memory :=
  ⟨Memory.backend fun _ => .ok none, snapshot, "1m", 8000000⟩

theorem distinct_earlier : earlier.Distinct :=
  ⟨by decide, by decide, by decide, by decide⟩

theorem fits_earlier : earlier.Fits :=
  ⟨by decide, by decide, by decide⟩

/-- A later snapshot: materials and descriptors are there, and the first course has one more
session. -/
def current : Snapshot :=
  Reconciliation.Sample.snapshot

theorem distinct_current : current.Distinct :=
  ⟨by decide, by decide, by decide, by decide⟩

theorem fits_current : current.Fits :=
  ⟨by decide, by decide, by decide⟩

theorem reachable_begun (snapshot : Snapshot) : Reachable (system snapshot).backend begun :=
  Memory.reachable_holding _ fits_earlier
    (List.ne_nil_of_length_pos (by decide : 0 < (earlier.courseDocuments earlier.courseIds).length))

theorem ingestedBefore_begun (snapshot : Snapshot) :
    Reconciliation.IngestedBefore (system snapshot).backend begun
      ((system snapshot).stamp begun) :=
  Memory.ingestedBefore_holding _ (by decide)

theorem exists_success_of_begun {snapshot : Snapshot} (fits : snapshot.Fits) :
    ∃ last report, (system snapshot).Reaches begun last ∧ last.Ends (.ok report) ∧
      ∀ entry ∈ last.handled, entry.2 = .ok true := by
  refine exists_success (Memory.exact_backend _) (Memory.neverFails_backend _)
    (fun _ => ⟨none, rfl⟩) fits fun index => ?_
  exact (Memory.length_holding_le _ index).trans (by decide)

end Sample

end Installation
end LearningIndex
