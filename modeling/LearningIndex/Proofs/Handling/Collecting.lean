import LearningIndex.Proofs.Handling.Calls
import LearningIndex.Proofs.Program.Faults

/-!
# What a call collects

Before a call of an indexer writes anything it finds out what to write: it looks for its entities in
the index, reads the files of those that no answer lists, and builds their documents.  Nothing is
assumed of the answers here: a search may list anything, and a file may be found at one time and not
at another.
-/

namespace LearningIndex

open Calendar (Instant)

/-- An answer to a search of the trace lists the key, in the aggregation over the field. -/
def Listed (field : String) (trace : List (Exchange services)) (key : Json) : Prop :=
  ∃ request answer buckets bucket, ⟨.engine (.search request), .ok answer⟩ ∈ trace ∧
    bucketsOf? answer field = some buckets ∧ bucket ∈ buckets ∧ bucket.get? "key" = some key

theorem listed_append_iff {field : String} {first second : List (Exchange services)} {key : Json} :
    Listed field (first ++ second) key ↔ Listed field first key ∨ Listed field second key := by
  simp only [Listed, List.mem_append, or_and_right, exists_or]

theorem not_listed_nil (field : String) (key : Json) : ¬ Listed field [] key := by
  simp [Listed]

namespace Catalog

variable {κ : Type} [Key κ]

theorem mem_aggregationKeys_iff [LawfulKey κ]
    (injective : Function.Injective (Key.toJson : κ → Json)) {request : SearchRequest}
    {answer : Json} {field : String} {ids : List κ}
    (read : aggregationKeys answer field = .ok ids) (id : κ) :
    id ∈ ids ↔ Listed field [⟨.engine (.search request), .ok answer⟩] (Key.toJson id) := by
  obtain ⟨buckets, found, keys⟩ := aggregationKeys_eq_ok_iff.mp read
  constructor
  · intro member
    obtain ⟨bucket, inside, shown⟩ := exists_mem_of_forall₂ keys member
    refine ⟨request, answer, buckets, bucket, List.mem_singleton_self _, found, inside, ?_⟩
    cases value : bucket.get? "key" with
    | none => simp [bucketKey, value] at shown
    | some key =>
        rw [bucketKey_eq_ok_iff value] at shown
        rw [LawfulKey.toJson_of_ofJson shown]
  · rintro ⟨_, _, _, bucket, member, found', inside, shown⟩
    cases List.mem_singleton.mp member
    obtain rfl := Option.some.inj (found.symm.trans found')
    obtain ⟨other, member, own⟩ := exists_mem_of_forall₂ keys.flip inside
    rw [bucketKey_eq_ok_iff shown] at own
    rwa [injective (LawfulKey.toJson_of_ofJson own)] at member

/-- The ids that are found are those that the answers list. -/
theorem mem_iff_of_yields_foundIn [LawfulKey κ]
    (injective : Function.Injective (Key.toJson : κ → Json)) {catalog : Catalog} {field : String}
    {since : Option (String × Instant)} {portions : List (List κ)}
    {trace : List (Exchange services)} {ids : List κ}
    (run : (catalog.foundIn field since portions).Yields trace (.ok ids)) (id : κ) :
    id ∈ ids ↔ Listed field trace (Key.toJson id) := by
  induction portions generalizing trace ids with
  | nil =>
      obtain ⟨rfl, same⟩ := Program.yields_done_iff.mp run
      obtain rfl := Except.ok.inj same
      simp [not_listed_nil]
  | cons portion rest ih =>
      simp only [foundIn, Program.bind_eq_andThen, Program.pure_eq_done] at run
      obtain ⟨answer, first, second, rfl, asked, run⟩ := Program.yields_andThen_ok_iff.mp run
      obtain ⟨found, _, third, rfl, parsed, run⟩ := Program.yields_andThen_ok_iff.mp run
      obtain ⟨inner, later, success⟩ := Program.yields_andThen_map_iff.mp run
      obtain ⟨rfl, read⟩ := Program.yields_done_iff.mp parsed
      obtain ⟨reply, rfl, answered⟩ := Task.yields_engine_iff.mp asked
      cases inner with
      | error error => cases success
      | ok others =>
          obtain rfl := Except.ok.inj success
          cases reply with
          | error error => cases answered
          | ok value =>
              obtain rfl := Except.ok.inj answered
              cases keys : (aggregationKeys answer field : Except EngineError (List κ)) with
              | error error => simp [keys, Except.mapError] at read
              | ok own =>
                  simp only [keys, Except.mapError, Except.ok.injEq] at read
                  subst read
                  rw [List.mem_append, mem_aggregationKeys_iff injective keys, ih later,
                    List.nil_append, listed_append_iff]

end Catalog

namespace Entity

/-- The path of the file whose text belongs to the entity. -/
def filePath? : Entity → Option String
  | learningMaterial material => material.relativePath.map LearningMaterialIndexer.textPath
  | course _ | meshDescriptor _ => none

/-- The documents of the entity, given the text of its file and the text of the time. -/
def documents (indexer : LearningMaterialIndexer) (time : String) (text : ByteString) :
    Entity → List Document
  | learningMaterial material => indexer.documents material text
  | course composite => composite.documents
  | meshDescriptor descriptor => [descriptor.document time]

/-- The documents of some entities, one entity after the other.  What was found at the paths of
their files is listed in the order of the entities; where nothing was found there is no text. -/
def documentsInTurn (indexer : LearningMaterialIndexer) (time : String) :
    List Entity → List (Option ByteString) → List Document
  | [], _ => []
  | entity :: rest, found =>
    match entity.filePath? with
    | none => entity.documents indexer time [] ++ documentsInTurn indexer time rest found
    | some _ =>
      entity.documents indexer time ((found.headD none).getD []) ++
        documentsInTurn indexer time rest found.tail

end Entity

/-- The documents are those of the entities in turn, with what was found at the paths of their
files, and with a time that the clock showed where they need one. -/
structure BuiltFrom (indexer : LearningMaterialIndexer) (entities : List Entity)
    (trace : List (Exchange services)) (documents : List Document) : Prop where
  reads : trace.filterMap (·.request.path?) = entities.filterMap (·.filePath?)
  documents_eq : ∃ now,
    (∀ entity ∈ entities, entity.kind = .meshDescriptor → ⟨.clock, now⟩ ∈ trace) ∧
      documents = Entity.documentsInTurn indexer now.bound entities (trace.filterMap (·.text?))

/-- How documents are built for some entities: what is read for them, and what comes of it. -/
structure Assembles (indexer : LearningMaterialIndexer) (entities : List Entity)
    (trace : List (Exchange services)) (outcome : Except IndexingError (List Document)) : Prop where
  fetched : ∀ exchange ∈ trace, exchange.request.IsFetch
  reads : trace.filterMap (·.request.path?) <+: entities.filterMap (·.filePath?)
  /-- Success means that the documents are those of the entities. -/
  built : ∀ documents, outcome = .ok documents → BuiltFrom indexer entities trace documents

namespace LearningMaterialIndexer

theorem isCandid_fileText (material : LearningMaterial) : (fileText material).IsCandid := by
  unfold fileText
  split
  · trivial
  · exact (Task.isCandid_file _).andThen fun _ => trivial

theorem isCandid_documentsOf (indexer : LearningMaterialIndexer)
    (materials : List LearningMaterial) : (indexer.documentsOf materials).IsCandid := by
  induction materials with
  | nil => trivial
  | cons material rest ih =>
      exact (isCandid_fileText material).andThen fun _ => ih.andThen fun _ => trivial

theorem assembles_cons_of_none {indexer : LearningMaterialIndexer} {material : LearningMaterial}
    (pathless : material.relativePath = none) {entities : List Entity}
    {trace : List (Exchange services)} {outcome : Except IndexingError (List Document)}
    (assembles : Assembles indexer entities trace outcome) :
    Assembles indexer (.learningMaterial material :: entities) trace
      (outcome.map (indexer.documents material [] ++ ·)) := by
  have fileless : (Entity.learningMaterial material).filePath? = none := by
    simp [Entity.filePath?, pathless]
  refine ⟨assembles.fetched, by simpa [fileless] using assembles.reads, fun documents same => ?_⟩
  cases outcome with
  | error error => cases same
  | ok others =>
      obtain rfl := Except.ok.inj same
      obtain ⟨reads, now, told, rfl⟩ := assembles.built others rfl
      refine ⟨by simpa [fileless] using reads, now, ?_, ?_⟩
      · exact List.forall_mem_cons.mpr ⟨fun other => (nomatch other), told⟩
      · simp [Entity.documentsInTurn, fileless, Entity.documents]

theorem assembles_cons_of_some {indexer : LearningMaterialIndexer} {material : LearningMaterial}
    {path : String} (located : material.relativePath = some path) {entities : List Entity}
    {found : Option ByteString} {trace : List (Exchange services)}
    {outcome : Except IndexingError (List Document)}
    (assembles : Assembles indexer entities trace outcome) :
    Assembles indexer (.learningMaterial material :: entities)
      (⟨.file (textPath path), .ok found⟩ :: trace)
      (outcome.map (indexer.documents material (found.getD []) ++ ·)) := by
  have filed : (Entity.learningMaterial material).filePath? = some (textPath path) := by
    simp [Entity.filePath?, located]
  refine ⟨List.forall_mem_cons.mpr ⟨trivial, assembles.fetched⟩, ?_, fun documents same => ?_⟩
  · simpa [filed, Service.Request.path?] using assembles.reads
  · cases outcome with
    | error error => cases same
    | ok others =>
        obtain rfl := Except.ok.inj same
        obtain ⟨reads, now, told, rfl⟩ := assembles.built others rfl
        refine ⟨by simpa [filed, Service.Request.path?] using reads, now, ?_, ?_⟩
        · refine List.forall_mem_cons.mpr
            ⟨fun other => (nomatch other), fun entity inside same => ?_⟩
          exact List.mem_cons_of_mem _ (told entity inside same)
        · simp [Entity.documentsInTurn, filed, Entity.documents, Exchange.text?]

theorem assembles_of_yields_documentsOf {indexer : LearningMaterialIndexer}
    {materials : List LearningMaterial} {trace : List (Exchange services)}
    {outcome : Except IndexingError (List Document)}
    (run : (indexer.documentsOf materials).Yields trace outcome) :
    Assembles indexer (materials.map .learningMaterial) trace outcome := by
  induction materials generalizing trace outcome with
  | nil =>
      obtain ⟨rfl, rfl⟩ := Program.yields_done_iff.mp run
      refine ⟨by simp, List.nil_prefix, fun documents same => ⟨rfl, .epoch, by simp, ?_⟩⟩
      exact (Except.ok.inj same).symm
  | cons material rest ih =>
      rw [documentsOf, fileText] at run
      cases located : material.relativePath with
      | none =>
          rw [located] at run
          obtain ⟨inner, others, rfl⟩ := Program.yields_andThen_map_iff.mp run
          exact assembles_cons_of_none located (ih others)
      | some path =>
          rw [located] at run
          obtain ⟨reply, after, rfl, later⟩ := Program.yields_ask_iff.mp run
          cases reply with
          | error error =>
              obtain ⟨rfl, rfl⟩ := Program.yields_done_iff.mp later
              refine ⟨by simp [Service.Request.IsFetch], ?_, fun _ same => (nomatch same)⟩
              simp [Entity.filePath?, located, Service.Request.path?]
          | ok found =>
              obtain ⟨inner, others, rfl⟩ := Program.yields_andThen_map_iff.mp later
              exact assembles_cons_of_some located (ih others)

end LearningMaterialIndexer

namespace Catalog

variable {κ : Type} [Key κ]

theorem isCandid_requireEngine (catalog : Catalog) : catalog.requireEngine.IsCandid := by
  unfold requireEngine
  split <;> trivial

theorem isCandid_foundIn (catalog : Catalog) (field : String) (since : Option (String × Instant))
    (portions : List (List κ)) : (catalog.foundIn field since portions).IsCandid := by
  induction portions with
  | nil => trivial
  | cons portion rest ih =>
      refine (Task.isCandid_engine _).andThen fun answer => ?_
      exact (Program.isCandid_ofExcept _).andThen fun found => ih.andThen fun _ => trivial

theorem isCandid_skipSet [DecidableEq κ] (catalog : Catalog) (field : String)
    (candidates : List κ) (since : Option (String × Instant)) :
    (catalog.skipSet field candidates since).IsCandid :=
  catalog.isCandid_requireEngine.andThen fun _ =>
    (catalog.isCandid_foundIn field since _).andThen fun _ => trivial

/-- What is asked for a skip set, and that it holds the candidates that the answers list. -/
structure Screens [DecidableEq κ] (inquires : Service.Request → Prop) (field : String)
    (candidates : List κ) (trace : List (Exchange services))
    (outcome : Except IndexingError (SkipSet κ)) : Prop where
  asked : ∀ exchange ∈ trace, inquires exchange.request
  /-- What is skipped is what the answers list. -/
  contains_iff : ∀ skip, outcome = .ok skip → ∀ id ∈ candidates,
    (skip.contains id = true ↔ Listed field trace (Key.toJson id))
  refused : SawIllegible κ field trace → ∃ text, outcome = .error (.engine (.parse text))

theorem screens_of_yields_skipSet [DecidableEq κ] [LawfulKey κ]
    (injective : Function.Injective (Key.toJson : κ → Json)) {catalog : Catalog} {field : String}
    {candidates : List κ} {since : Option (String × Instant)} {inquires : Service.Request → Prop}
    (enabled : catalog.enabled = true)
    (questions : ∀ portion ⊆ candidates, inquires (catalog.portionRequest field since portion))
    {trace : List (Exchange services)} {outcome : Except IndexingError (SkipSet κ)}
    (run : (catalog.skipSet field candidates since).Yields trace outcome) :
    Screens inquires field candidates trace outcome := by
  obtain ⟨⟨portions, whole, _, asked, _⟩, _, _, refused⟩ := skips_of_yields_skipSet run
  rw [skipSet, requireEngine_of_enabled enabled] at run
  obtain ⟨inner, search, rfl⟩ := Program.yields_andThen_map_iff.mp run
  refine ⟨fun exchange member => ?_, fun skip made id among => ?_, refused⟩
  · obtain ⟨portion, inside, same⟩ :=
      List.mem_map.mp (asked.subset (List.mem_map_of_mem member))
    rw [← same]
    exact questions portion fun id own => whole ▸ List.mem_flatten.mpr ⟨portion, inside, own⟩
  · cases inner with
    | error error => cases made
    | ok found =>
        rw [← mem_iff_of_yields_foundIn injective search id, ← Except.ok.inj made]
        simp [SkipSet.contains, SkipSet.ofCandidates, among]

theorem screens_empty [DecidableEq κ] (inquires : Service.Request → Prop) (field : String)
    (candidates : List κ) : Screens inquires field candidates [] (.ok .empty) where
  asked := by simp
  contains_iff skip made id _ := by
    rw [← Except.ok.inj made]
    simp [SkipSet.contains, SkipSet.empty, not_listed_nil]
  refused := by simp [SawIllegible]

end Catalog

namespace IndexCall

open Classical in
/-- The entities of the call that no answer of the trace lists. -/
noncomputable def unlisted (call : IndexCall) (trace : List (Exchange services)) : List Entity :=
  call.entities.filter fun entity => ¬ Listed call.kind.keyField trace entity.key

/-- The request asks which of some entities of the call the index holds, recently enough if that
matters. -/
def Inquires (call : IndexCall) (request : Service.Request) : Prop :=
  ∃ since ∈ call.condition?, ∃ keys ⊆ call.entities.map (·.key),
    request = .engine (.search ⟨call.kind.home, .indexed call.kind.keyField keys since, none⟩)

theorem Inquires.isSearch {call : IndexCall} {request : Service.Request}
    (inquires : call.Inquires request) : request.IsSearch := by
  obtain ⟨_, _, _, _, rfl⟩ := inquires
  trivial

/-- The call cannot read which entities an answer lists. -/
def CannotRead (call : IndexCall) (answer : Json) : Prop :=
  match call.kind with
  | .learningMaterial | .course => Illegible Int answer call.kind.keyField
  | .meshDescriptor => Illegible String answer call.kind.keyField

/-- What a call asks before it writes, and what it makes of the answers, whatever they are. -/
structure Collects (call : IndexCall) (indexer : LearningMaterialIndexer)
    (trace : List (Exchange services)) (outcome : Except IndexingError (List Document)) : Prop where
  /-- The call asks which entities the index holds, and fetches what the others need. -/
  asked : ∀ exchange ∈ trace, call.Inquires exchange.request ∨ exchange.request.IsFetch
  /-- Only files of entities that are not listed are read. -/
  reads : trace.filterMap (·.request.path?) <+: (call.unlisted trace).filterMap (·.filePath?)
  /-- Success means that the documents are those of the entities that are not listed. -/
  built : ∀ documents, outcome = .ok documents →
    BuiltFrom indexer (call.unlisted trace) trace documents
  returned : ∀ exchange ∈ trace, ∀ error, exchange.fault? = some error → outcome = .error error
  refused : ∀ request answer, ⟨.engine (.search request), .ok answer⟩ ∈ trace →
    call.CannotRead answer → ∃ text, outcome = .error (.engine (.parse text))

section Collecting

variable {call : IndexCall} {κ α : Type} [Key κ] [DecidableEq κ] {items : List α}
variable (entity : α → Entity) (key : α → κ)

omit [DecidableEq κ] in
theorem inquires_portion (listed : call.entities = items.map entity)
    (keyed : ∀ item, (entity item).key = Key.toJson (key item)) {catalog : Catalog}
    {since : Option (String × Instant)} (asked : call.condition? = some since)
    (home : catalog.index = call.kind.home) :
    ∀ portion ⊆ items.map key,
      call.Inquires (catalog.portionRequest call.kind.keyField since portion) := by
  intro portion within
  refine ⟨since, asked, portion.map Key.toJson, fun value inside => ?_, by
    rw [Catalog.portionRequest, home]⟩
  obtain ⟨id, member, rfl⟩ := List.mem_map.mp inside
  obtain ⟨item, own, rfl⟩ := List.mem_map.mp (within member)
  rw [listed, List.map_map]
  exact List.mem_map.mpr ⟨item, own, keyed item⟩

/-- The entities that are not listed are those that a skip set leaves. -/
theorem unlisted_eq_map (listed : call.entities = items.map entity)
    (keyed : ∀ item, (entity item).key = Key.toJson (key item))
    {first second : List (Exchange services)} {skip : SkipSet κ}
    (screens : Catalog.Screens call.Inquires call.kind.keyField (items.map key) first (.ok skip))
    (fetched : ∀ exchange ∈ second, exchange.request.IsFetch) :
    call.unlisted (first ++ second) =
      (items.filter fun item => !skip.contains (key item)).map entity := by
  have unsearched (key : Json) : ¬ Listed call.kind.keyField second key := by
    rintro ⟨request, answer, _, _, member, _⟩
    exact fetched _ member
  rw [unlisted, listed, List.filter_map]
  congr 1
  refine List.filter_congr fun item inside => ?_
  have known := screens.contains_iff skip rfl (key item) (List.mem_map_of_mem inside)
  simp only [Function.comp_apply, keyed, listed_append_iff, unsearched, or_false, ← known]
  simp

/-- A call that screens its items and builds the documents of those that are left collects. -/
theorem collects_of_yields_andThen {indexer : LearningMaterialIndexer}
    (screen : Task (SkipSet κ)) (build : List α → Task (List Document))
    (listed : call.entities = items.map entity)
    (keyed : ∀ item, (entity item).key = Key.toJson (key item))
    (unread : ∀ answer, call.CannotRead answer → Illegible κ answer call.kind.keyField)
    (candid : screen.IsCandid) (candid' : ∀ items, (build items).IsCandid)
    (screens : ∀ {trace outcome}, screen.Yields trace outcome →
      Catalog.Screens call.Inquires call.kind.keyField (items.map key) trace outcome)
    (assembles : ∀ {items trace outcome}, (build items).Yields trace outcome →
      Assembles indexer (items.map entity) trace outcome)
    {trace : List (Exchange services)} {outcome : Except IndexingError (List Document)}
    (run : (screen.andThen fun skip =>
      build (items.filter fun item => !skip.contains (key item))).Yields trace outcome) :
    call.Collects indexer trace outcome := by
  have returned (exchange : Exchange services) (member : exchange ∈ trace) (error : IndexingError)
      (fault : exchange.fault? = some error) : outcome = .error error :=
    (candid.andThen fun _ => candid' _).outcome_eq run member fault
  rcases Program.yields_andThen_iff.mp run with
    ⟨error, failed, rfl⟩ | ⟨skip, first, second, rfl, screened, building⟩
  · have screens := screens failed
    have searched (exchange : Exchange services) (member : exchange ∈ trace) :=
      (screens.asked exchange member).isSearch
    refine ⟨fun exchange member => .inl (screens.asked exchange member), ?_,
      fun _ same => (nomatch same), returned, fun request answer member illegible => ?_⟩
    · rw [filterMap_path?_of_isSearch searched]
      exact List.nil_prefix
    · obtain ⟨text, same⟩ := screens.refused ⟨request, answer, member, unread answer illegible⟩
      exact ⟨text, congrArg Except.error (Except.error.inj same)⟩
  · have screens := screens screened
    have searched (exchange : Exchange services) (member : exchange ∈ first) :=
      (screens.asked exchange member).isSearch
    have assembles := assembles building
    -- Fetching lists nothing, so the screening alone decides what is left.
    have kept := unlisted_eq_map entity key listed keyed screens assembles.fetched
    refine ⟨fun exchange member => ?_, ?_, fun documents made => ?_, returned,
      fun request answer member illegible => ?_⟩
    · rcases List.mem_append.mp member with early | late
      · exact .inl (screens.asked exchange early)
      · exact .inr (assembles.fetched exchange late)
    · rw [kept, List.filterMap_append, filterMap_path?_of_isSearch searched]
      exact assembles.reads
    · obtain ⟨reads, now, told, rfl⟩ := assembles.built documents made
      rw [kept]
      refine ⟨?_, now, fun entity inside same => ?_, ?_⟩
      · rw [List.filterMap_append, filterMap_path?_of_isSearch searched]
        exact reads
      · exact List.mem_append_right first (told entity inside same)
      · rw [List.filterMap_append, filterMap_text?_of_isSearch searched]
        rfl
    · rcases List.mem_append.mp member with early | late
      · obtain ⟨_, same⟩ := screens.refused ⟨request, answer, early, unread answer illegible⟩
        cases same
      · exact absurd (assembles.fetched _ late) id

end Collecting

theorem collects_learningMaterials {keepAlive : String} {uploadLimit : Nat}
    {materials : List LearningMaterial} {force : Bool} {trace : List (Exchange services)}
    {outcome : Except IndexingError (List Document)}
    (run : ((LearningMaterialIndexer.skipped (.new true keepAlive uploadLimit) materials
      force).andThen fun skip => LearningMaterialIndexer.documentsOf
        (.new true keepAlive uploadLimit)
          (materials.filter fun material => !skip.contains material.id)).Yields trace outcome) :
    (learningMaterials (materials.map .learningMaterial) force).Collects
      (.new true keepAlive uploadLimit) trace outcome := by
  let indexer : LearningMaterialIndexer := .new true keepAlive uploadLimit
  refine collects_of_yields_andThen Entity.learningMaterial (·.id)
    (indexer.skipped materials force) indexer.documentsOf rfl (fun _ => rfl) (fun _ => id) ?_
    indexer.isCandid_documentsOf (fun {first screened} search => ?_)
    LearningMaterialIndexer.assembles_of_yields_documentsOf run
  · unfold LearningMaterialIndexer.skipped
    split
    · trivial
    · exact Catalog.isCandid_skipSet _ _ _ _
  · unfold LearningMaterialIndexer.skipped at search
    cases force with
    | true =>
        obtain ⟨rfl, rfl⟩ := Program.yields_done_iff.mp search
        exact Catalog.screens_empty _ _ _
    | false =>
        exact Catalog.screens_of_yields_skipSet (fun _ _ => Json.integer.inj) rfl
          (inquires_portion Entity.learningMaterial (·.id) rfl (fun _ => rfl) rfl rfl) search

theorem assembles_courses (indexer : LearningMaterialIndexer) (courses : List CompositeCourse) :
    Assembles indexer (courses.map .course) [] (.ok (courses.flatMap (·.documents))) := by
  have fileless : (courses.map Entity.course).filterMap (·.filePath?) = [] := by
    simp [List.filterMap_map, Entity.filePath?]
  refine ⟨by simp, List.nil_prefix, fun documents made => ⟨fileless.symm, .epoch, ?_, ?_⟩⟩
  · exact List.forall_mem_map.mpr fun _ _ other => (nomatch other)
  · rw [← Except.ok.inj made]
    clear made fileless
    induction courses with
    | nil => rfl
    | cons composite rest ih =>
        simpa [Entity.documentsInTurn, Entity.filePath?, Entity.documents] using ih

theorem collects_courses {indexer : LearningMaterialIndexer} {keepAlive : String}
    {courses : List CompositeCourse} {stamp : Instant}
    {trace : List (Exchange services)} {outcome : Except IndexingError (List Document)}
    (run : ((Catalog.skipSet ⟨CurriculumIndexer.indexName, keepAlive, true⟩
      CurriculumIndexer.courseIdField (courses.map (·.course.id))
      (some (CurriculumIndexer.ingestTimeField, stamp))).andThen fun skip => .done (.ok
        ((courses.filter fun composite => !skip.contains composite.course.id).flatMap
          (·.documents)))).Yields trace outcome) :
    (IndexCall.courses (courses.map .course) stamp).Collects indexer trace outcome := by
  let build (courses : List CompositeCourse) : Task (List Document) :=
    .done (.ok (courses.flatMap (·.documents)))
  have assembles {courses : List CompositeCourse} {trace : List (Exchange services)}
      {outcome : Except IndexingError (List Document)}
      (built : (build courses).Yields trace outcome) :
      Assembles indexer (courses.map .course) trace outcome := by
    obtain ⟨rfl, rfl⟩ := Program.yields_done_iff.mp built
    exact assembles_courses indexer courses
  exact collects_of_yields_andThen Entity.course (fun composite => composite.course.id) _ build rfl
    (fun _ => rfl) (fun _ => id) (Catalog.isCandid_skipSet _ _ _ _) (fun _ => trivial)
    (Catalog.screens_of_yields_skipSet (fun _ _ => Json.integer.inj) rfl
      (inquires_portion Entity.course _ rfl (fun _ => rfl) rfl rfl)) assembles run

theorem assembles_descriptors (indexer : LearningMaterialIndexer)
    (descriptors : List MeshDescriptor) (now : Instant) :
    Assembles indexer (descriptors.map .meshDescriptor) [⟨.clock, now⟩]
      (.ok (descriptors.map (·.document now.bound))) := by
  have fileless : (descriptors.map Entity.meshDescriptor).filterMap (·.filePath?) = [] := by
    simp [List.filterMap_map, Entity.filePath?]
  refine ⟨by simp [Service.Request.IsFetch], List.nil_prefix, fun documents made =>
    ⟨fileless.symm, now, fun _ _ _ => List.mem_singleton_self _, ?_⟩⟩
  rw [← Except.ok.inj made]
  clear made fileless
  induction descriptors with
  | nil => rfl
  | cons descriptor rest ih =>
      simpa [Entity.documentsInTurn, Entity.filePath?, Entity.documents] using ih

theorem collects_descriptors {indexer : LearningMaterialIndexer} {keepAlive : String}
    {descriptors : List MeshDescriptor} {stamp : Instant}
    {trace : List (Exchange services)} {outcome : Except IndexingError (List Document)}
    (run : ((Catalog.skipSet ⟨MeshIndexer.indexName, keepAlive, true⟩ MeshIndexer.idField
      (descriptors.map (·.id)) (some (MeshIndexer.ingestTimeField, stamp))).andThen fun skip =>
        Task.clock.andThen fun now => .done (.ok
          ((descriptors.filter fun descriptor => !skip.contains descriptor.id).map
            (·.document now.bound)))).Yields trace outcome) :
    (IndexCall.descriptors (descriptors.map .meshDescriptor) stamp).Collects indexer trace
      outcome := by
  let build (descriptors : List MeshDescriptor) : Task (List Document) :=
    Task.clock.andThen fun now => .done (.ok (descriptors.map (·.document now.bound)))
  have assembles {descriptors : List MeshDescriptor} {trace : List (Exchange services)}
      {outcome : Except IndexingError (List Document)}
      (built : (build descriptors).Yields trace outcome) :
      Assembles indexer (descriptors.map .meshDescriptor) trace outcome := by
    obtain ⟨now, rest, rfl, ended⟩ := Program.yields_ask_iff.mp built
    obtain ⟨rfl, rfl⟩ := Program.yields_done_iff.mp ended
    exact assembles_descriptors indexer descriptors now
  exact collects_of_yields_andThen Entity.meshDescriptor (fun descriptor => descriptor.id) _ build
    rfl (fun _ => rfl) (fun _ => id) (Catalog.isCandid_skipSet _ _ _ _)
    (fun _ => Task.isCandid_clock.andThen fun _ => trivial)
    (Catalog.screens_of_yields_skipSet (fun _ _ => Json.string.inj) rfl
      (inquires_portion Entity.meshDescriptor _ rfl (fun _ => rfl) rfl rfl)) assembles run

end IndexCall

end LearningIndex
