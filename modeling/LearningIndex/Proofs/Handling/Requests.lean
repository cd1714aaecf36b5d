import LearningIndex.Command.Operations
import LearningIndex.Proofs.Reconciliation.Plan

/-!
# From ids to entities

Ids that are to be indexed go into requests of at most fifty, which are handed over in order, and
each request gives the entities of its ids to their indexer.  On the way no id is lost or comes
twice, whoever forms the requests: the driver of a reconciliation or a command.  So each entity of a
snapshot whose id is listed reaches its indexer once, and no other entity does.
-/

namespace LearningIndex

open Calendar (Instant)
open Producer (dispatchAll handed)

/-! ## Kinds of requests -/

/-- A kind of requests to index, with the setting that they share. -/
inductive RequestKind where
  | learningMaterials (force : Bool)
  | courses (stamp : Instant)
  | descriptors (stamp : Instant)

namespace RequestKind

/-- The ids that the requests carry. -/
@[reducible]
def Id : RequestKind → Type
  | learningMaterials _ => Int
  | courses _ => Int
  | descriptors _ => String

def request : (kind : RequestKind) → List kind.Id → Except IndexingError IndexMessage
  | learningMaterials force => fun ids => IndexMessage.learningMaterials ids force
  | courses stamp => fun ids => IndexMessage.courses ids stamp
  | descriptors stamp => fun ids => IndexMessage.meshDescriptors ids stamp

def message : (kind : RequestKind) → List kind.Id → IndexMessage
  | learningMaterials force => fun ids => .indexLearningMaterials ids force
  | courses stamp => fun ids => .indexCourses ids stamp
  | descriptors stamp => fun ids => .indexMeshDescriptors ids stamp

/-- The ids that stand for all entities of the kind; of the learning materials only those with a
file count. -/
def allIds : (kind : RequestKind) → Snapshot → List kind.Id
  | learningMaterials _ => Snapshot.fileLearningMaterialIds
  | courses _ => Snapshot.courseIds
  | descriptors _ => Snapshot.meshDescriptorIds

/-- The entities of the kind, in the order of the snapshot. -/
def entities (snapshot : Snapshot) : RequestKind → List Entity
  | learningMaterials _ => snapshot.learningMaterials.map .learningMaterial
  | courses _ => snapshot.courses.map .course
  | descriptors _ => snapshot.meshDescriptors.map .meshDescriptor

/-- The id is that of the entity. -/
def Names : (kind : RequestKind) → kind.Id → Entity → Prop
  | learningMaterials _, id, .learningMaterial material => material.id = id
  | courses _, id, .course composite => composite.course.id = id
  | descriptors _, id, .meshDescriptor descriptor => descriptor.id = id
  | _, _, _ => False

/-- The call of the kind's indexer with some entities. -/
def index (indexers : Indexers) : RequestKind → List Entity → Task Bool
  | learningMaterials force => fun entities => indexers.learningMaterials.index entities force
  | courses stamp => fun entities => indexers.curriculum.index entities stamp
  | descriptors stamp => fun entities => indexers.mesh.index entities stamp

/-- The command to index by ids of the kind goes on as `rest` once it knows its setting: at once if
it is given, and else when it is told the time. -/
def Commands (deployment : Deployment) :
    (kind : RequestKind) → List kind.Id → Operation WorkerSummary → Prop
  | learningMaterials force => fun ids rest =>
    Operation.indexLearningMaterials deployment ids force = rest
  | courses stamp => fun ids rest =>
    ∃ next : Instant → Operation WorkerSummary,
      Operation.indexCourses deployment ids = .ask .clock next ∧ next stamp = rest
  | descriptors stamp => fun ids rest =>
    ∃ next : Instant → Operation WorkerSummary,
      Operation.indexMesh deployment ids = .ask .clock next ∧ next stamp = rest

/-- A command that is given some ids is about the listed ones: about those that it is given, or
where it is given none about all that the repository knows. -/
def Concerns (kind : RequestKind) (repository : Repository) (given listed : List kind.Id) : Prop :=
  (given ≠ [] ∧ listed = given) ∨ (given = [] ∧ repository.read kind.allIds = .ok listed)

end RequestKind

/-- The portions are those of the requests for some ids: together they are the ids in order, each
has one to fifty of them, and there are no more than are needed. -/
structure IsPortioned {κ : Type} (ids : List κ) (portions : List (List κ)) : Prop where
  /-- Nothing is lost or doubled. -/
  flatten : portions.flatten = ids
  sized : ∀ portion ∈ portions, 1 ≤ portion.length ∧ portion.length ≤ 50
  /-- There is one for every fifty ids, and one for those that are left. -/
  count : portions.length = (ids.length + 49) / 50

theorem isPortioned_batches {κ : Type} (ids : List κ) :
    IsPortioned ids (batches IndexMessage.maxIds ids) where
  flatten := flatten_batches _ ids
  sized portion member :=
    ⟨List.length_pos_iff.mpr (ne_nil_of_mem_batches member), length_le_of_mem_batches member⟩
  count := length_batches (by decide) ids

/-! ## Handing requests over -/

namespace Producer

/-- The messages are handed over in order, up to the first one that is refused, and the refusal is
the outcome; where none is refused, their number is. -/
def HandedInTurn (messages : List IndexMessage) (trace : List (Exchange dispatching))
    (outcome : Except IndexingError Nat) : Prop :=
  (trace = messages.map handed ∧ outcome = .ok messages.length) ∨
    ∃ before message after error, messages = before ++ message :: after ∧
      trace = before.map handed ++ [refused message error] ∧ outcome = .error error

end Producer

/-- The driver of a reconciliation hands the requests over in order. -/
theorem yields_queueBatches_iff (kind : RequestKind) (ids : List kind.Id)
    {trace : List (Exchange dispatching)} {outcome : Except IndexingError Nat} :
    (Reconciliation.queueBatches ids kind.request).Yields trace outcome ↔
      Producer.HandedInTurn ((batches IndexMessage.maxIds ids).map kind.message) trace outcome := by
  have queued : Reconciliation.queueBatches ids kind.request =
      (dispatchAll ((batches IndexMessage.maxIds ids).map kind.message)).andThen fun _ =>
        .done (.ok (batches IndexMessage.maxIds ids).length) := by
    cases kind <;> exact Reconciliation.queueBatches_eq ids _
  rw [queued, Program.yields_andThen_map_iff, Producer.HandedInTurn]
  constructor
  · rintro ⟨error | _, run, rfl⟩
    · obtain ⟨before, message, after, split, rfl⟩ := Producer.yields_dispatchAll_error_iff.mp run
      exact .inr ⟨before, message, after, error, split, rfl, rfl⟩
    · refine .inl ⟨Producer.yields_dispatchAll_ok_iff.mp run, ?_⟩
      rw [List.length_map]
      rfl
  · rintro (⟨rfl, rfl⟩ | ⟨before, message, after, error, split, rfl, rfl⟩)
    · exact ⟨.ok (), Producer.yields_dispatchAll_ok_iff.mpr rfl, by rw [List.length_map]; rfl⟩
    · exact ⟨.error error,
        Producer.yields_dispatchAll_error_iff.mpr ⟨before, message, after, split, rfl⟩, rfl⟩

/-! ## Commands -/

section Commands

variable {deployment : Deployment}

theorem idsOrAll_of_concerns {κ : Type} {given listed : List κ} {all : Snapshot → List κ}
    (concerns : (given ≠ [] ∧ listed = given) ∨
      (given = [] ∧ deployment.handler.repository.read all = .ok listed)) :
    Operation.idsOrAll deployment given all = .done (.ok listed) := by
  unfold Operation.idsOrAll
  rcases concerns with ⟨named, rfl⟩ | ⟨rfl, known⟩
  · rw [if_neg (by simpa using named)]
  · rw [if_pos List.isEmpty_nil, known]
    rfl

theorem commands_runMessages {kind : RequestKind} {given ids : List kind.Id}
    (concerns : kind.Concerns deployment.handler.repository given ids) :
    kind.Commands deployment given (Operation.runMessages deployment
      ((batches IndexMessage.maxIds ids).map kind.message)) := by
  cases kind with
  | learningMaterials force =>
      have chosen : Operation.idsOrAll deployment given (·.fileLearningMaterialIds) =
          .done (.ok ids) := idsOrAll_of_concerns concerns
      simp only [RequestKind.Commands, Operation.indexLearningMaterials,
        IndexMessage.learningMaterials, chosen, Program.bind_eq_andThen, Program.done_ok_andThen,
        IndexMessage.batched_eq]
      rfl
  | courses stamp =>
      have chosen : Operation.idsOrAll deployment given (·.courseIds) = .done (.ok ids) :=
        idsOrAll_of_concerns concerns
      simp only [RequestKind.Commands, Operation.indexCourses, IndexMessage.courses, chosen,
        Program.bind_eq_andThen, Program.done_ok_andThen, IndexMessage.batched_eq]
      exact ⟨_, rfl, rfl⟩
  | descriptors stamp =>
      have chosen : Operation.idsOrAll deployment given (·.meshDescriptorIds) = .done (.ok ids) :=
        idsOrAll_of_concerns concerns
      simp only [RequestKind.Commands, Operation.indexMesh, IndexMessage.meshDescriptors, chosen,
        Program.bind_eq_andThen, Program.done_ok_andThen, IndexMessage.batched_eq]
      exact ⟨_, rfl, rfl⟩

end Commands

section Working

variable {handle : IndexMessage → Task Bool}

theorem Worker.ok_of_yields_drain {queue : List IndexMessage} {summary : WorkerSummary}
    {trace : List (Exchange services)} {outcome : Except IndexingError WorkerSummary}
    (run : (Worker.drain handle queue summary).Yields trace outcome) :
    ∃ final, outcome = .ok final := by
  induction queue generalizing summary trace with
  | nil => exact ⟨summary, (Program.yields_done_iff.mp run).2⟩
  | cons message rest ih =>
      rcases Program.yields_andThen_iff.mp run with
        ⟨error, failed, -⟩ | ⟨result, first, second, rfl, -, later⟩
      · obtain ⟨result, impossible⟩ := failed.of_attempt
        cases impossible
      · exact ih later

theorem Producer.ok_of_yields_withWorker {messages : List IndexMessage} {capacity : Nat}
    {queue : List IndexMessage} {summary : WorkerSummary} {trace : List (Exchange services)}
    {outcome : Except IndexingError (Except IndexingError Unit × WorkerSummary)}
    (run : ((dispatchAll messages).withWorker capacity handle queue summary).Yields trace outcome) :
    ∃ final, outcome = .ok (.ok (), final) := by
  induction messages generalizing queue summary trace with
  | nil =>
      obtain ⟨inner, drained, rfl⟩ := Program.yields_andThen_map_iff.mp run
      obtain ⟨final, rfl⟩ := Worker.ok_of_yields_drain drained
      exact ⟨final, rfl⟩
  | cons message rest ih =>
      change (if queue.length < capacity then _ else _ : Task _).Yields trace outcome at run
      split at run
      · exact ih run
      · cases queue with
        | nil => exact ih run
        | cons oldest others =>
            rcases Program.yields_andThen_iff.mp run with
              ⟨error, failed, -⟩ | ⟨result, first, second, rfl, -, later⟩
            · obtain ⟨result, impossible⟩ := failed.of_attempt
              cases impossible
            · exact ih later

theorem Operation.checkSummary_ne_indexing (summary : WorkerSummary) (error : IndexingError) :
    checkSummary summary ≠ .error (.indexing error) := by
  unfold checkSummary
  split_ifs <;> simp

/-- A worker that handles messages may report that some failed, but no error of indexing keeps the
messages from it. -/
theorem Operation.ne_indexing_of_runMessages {deployment : Deployment}
    {messages : List IndexMessage} {trace : List (Exchange services)}
    {outcome : Except RunError WorkerSummary}
    (run : (Operation.runMessages deployment messages).Yields trace outcome)
    (error : IndexingError) : outcome ≠ .error (.indexing error) := by
  obtain ⟨both, worked, rfl⟩ := Program.yields_andThen_map_iff.mp run
  rcases Program.yields_andThen_iff.mp worked with
    ⟨failure, failed, -⟩ | ⟨⟨produced, summary⟩, first, second, -, began, later⟩
  · obtain ⟨inner, ran, same⟩ := failed.of_mapError
    obtain ⟨final, rfl⟩ := Producer.ok_of_yields_withWorker ran
    cases same
  · obtain ⟨inner, ran, same⟩ := began.of_mapError
    obtain ⟨final, rfl⟩ := Producer.ok_of_yields_withWorker ran
    cases same
    have unlike := checkSummary_ne_indexing summary error
    cases checked : checkSummary summary with
    | error failure =>
        simp only [Except.mapError, Program.ofExcept, checked, Program.bind_eq_andThen,
          Program.done_ok_andThen, Program.done_error_andThen, Program.yields_done_iff] at later
        rw [later.2]
        simpa [checked, Except.map] using unlike
    | ok _ =>
        simp only [Except.mapError, Program.ofExcept, checked, Program.bind_eq_andThen,
          Program.done_ok_andThen, Program.pure_eq_done, Program.yields_done_iff] at later
        rw [later.2]
        simp [Except.map]

end Working

/-! ## Handling requests -/

namespace RequestKind

variable {kind : RequestKind} {snapshot : Snapshot}

/-- What a snapshot finds by ids of the kind. -/
def found (snapshot : Snapshot) : (kind : RequestKind) → List kind.Id → List Entity
  | learningMaterials _ => fun ids => (snapshot.findLearningMaterials ids).map .learningMaterial
  | courses _ => fun ids => (snapshot.findCourses ids).map .course
  | descriptors _ => fun ids => (snapshot.findMeshDescriptors ids).map .meshDescriptor

theorem handle_message {handler : Handler} (known : handler.repository = .of snapshot)
    (ids : List kind.Id) :
    handler.handle (kind.message ids) = kind.index handler.indexers (kind.found snapshot ids) := by
  cases kind <;>
    simp only [message, Handler.handle, known, Repository.read, Program.ofExcept,
      Program.bind_eq_andThen, Program.done_ok_andThen] <;>
    rfl

theorem found_sublist (ids : List kind.Id) :
    (kind.found snapshot ids).Sublist (kind.entities snapshot) := by
  cases kind <;> exact List.filter_sublist.map _

theorem mem_map_filter_contains_iff {α κ : Type} [BEq κ] [LawfulBEq κ] {items : List α}
    {key : α → κ} {wrap : α → Entity} {names : κ → Entity → Prop}
    (names_wrap : ∀ id item, names id (wrap item) ↔ key item = id) {ids : List κ}
    {entity : Entity} :
    entity ∈ (items.filter fun item => ids.contains (key item)).map wrap ↔
      entity ∈ items.map wrap ∧ ∃ id ∈ ids, names id entity := by
  constructor
  · intro member
    obtain ⟨item, inside, rfl⟩ := List.mem_map.mp member
    obtain ⟨present, listed⟩ := List.mem_filter.mp inside
    exact ⟨List.mem_map_of_mem present, key item, List.contains_iff_mem.mp listed,
      (names_wrap _ _).mpr rfl⟩
  · rintro ⟨member, id, listed, named⟩
    obtain ⟨item, present, rfl⟩ := List.mem_map.mp member
    obtain rfl := (names_wrap _ _).mp named
    exact List.mem_map_of_mem (List.mem_filter.mpr ⟨present, List.contains_iff_mem.mpr listed⟩)

theorem mem_found_iff {ids : List kind.Id} {entity : Entity} :
    entity ∈ kind.found snapshot ids ↔
      entity ∈ kind.entities snapshot ∧ ∃ id ∈ ids, kind.Names id entity := by
  cases kind <;> exact mem_map_filter_contains_iff fun _ _ => Iff.rfl

theorem Names.unique {id other : kind.Id} {entity : Entity} (names : kind.Names id entity)
    (names' : kind.Names other entity) : id = other := by
  cases kind <;> cases entity <;> first | exact names.symm.trans names' | exact names.elim

theorem nodup_entities (distinct : snapshot.Distinct) : (kind.entities snapshot).Nodup := by
  cases kind with
  | learningMaterials force =>
      exact distinct.materials.of_map.map fun _ _ same => Entity.learningMaterial.inj same
  | courses stamp => exact distinct.courses.of_map.map fun _ _ same => Entity.course.inj same
  | descriptors stamp =>
      exact distinct.descriptors.of_map.map fun _ _ same => Entity.meshDescriptor.inj same

/-- Portions of a list without repetition find no entity twice. -/
theorem nodup_flatMap_found (distinct : snapshot.Distinct) {ids : List kind.Id} (once : ids.Nodup)
    (size : Nat) : ((batches size ids).flatMap (kind.found snapshot)).Nodup := by
  rw [List.nodup_flatMap]
  refine ⟨fun portion _ => (nodup_entities distinct).sublist (found_sublist portion), ?_⟩
  refine (pairwise_disjoint_batches once).imp fun {portion other} apart entity found found' => ?_
  obtain ⟨-, id, listed, names⟩ := mem_found_iff.mp found
  obtain ⟨-, id', listed', names'⟩ := mem_found_iff.mp found'
  obtain rfl := names.unique names'
  exact apart listed listed'

end RequestKind

/-- The requests of some portions of ids give entities of a snapshot to their indexer: each request
those of its ids, in the order of the snapshot, and all requests together every entity whose id is
listed once and no other. -/
def HandsOverOnce (kind : RequestKind) (handler : Handler) (snapshot : Snapshot)
    (ids : List kind.Id) (portions : List (List kind.Id)) : Prop :=
  ∃ given : List kind.Id → List Entity,
    (∀ portion ∈ portions,
      handler.handle (kind.message portion) = kind.index handler.indexers (given portion) ∧
        (given portion).Sublist (kind.entities snapshot) ∧
        ∀ entity, entity ∈ given portion ↔
          entity ∈ kind.entities snapshot ∧ ∃ id ∈ portion, kind.Names id entity) ∧
      (portions.flatMap given).Nodup ∧
      ∀ entity, entity ∈ portions.flatMap given ↔
        entity ∈ kind.entities snapshot ∧ ∃ id ∈ ids, kind.Names id entity

theorem handsOverOnce_batches {kind : RequestKind} {handler : Handler} {snapshot : Snapshot}
    (known : handler.repository = .of snapshot) (distinct : snapshot.Distinct)
    {ids : List kind.Id} (once : ids.Nodup) (size : Nat) :
    HandsOverOnce kind handler snapshot ids (batches size ids) := by
  refine ⟨kind.found snapshot, fun portion _ => ⟨RequestKind.handle_message known portion,
    RequestKind.found_sublist portion, fun entity => RequestKind.mem_found_iff⟩,
    RequestKind.nodup_flatMap_found distinct once size, fun entity => ?_⟩
  simp only [List.mem_flatMap, RequestKind.mem_found_iff]
  constructor
  · rintro ⟨portion, member, present, id, inside, names⟩
    exact ⟨present, id, mem_of_mem_batches member inside, names⟩
  · rintro ⟨present, id, listed, names⟩
    obtain ⟨portion, member, inside⟩ : ∃ portion ∈ batches size ids, id ∈ portion :=
      exists_mem_batches listed
    exact ⟨portion, member, present, id, inside, names⟩

/-- Any list of ids is cut into portions of one to fifty that make it up, and no more of them than
are needed.  The driver of a reconciliation hands over their requests in order, and fails only if
one is refused.  A command about the ids has a worker handle the requests, and no error of indexing
keeps them from it; a command that is given no ids is about all of the repository.  If the ids do
not repeat, nor those of the snapshot, then handling the requests gives each entity of the snapshot
whose id is listed to its indexer once, and no other entity. -/
theorem ids_reach_indexers (kind : RequestKind) (ids : List kind.Id) :
    ∃ portions, IsPortioned ids portions ∧
      (∀ trace outcome, (Reconciliation.queueBatches ids kind.request).Yields trace outcome ↔
        Producer.HandedInTurn (portions.map kind.message) trace outcome) ∧
      (∀ deployment given, kind.Concerns deployment.handler.repository given ids →
        kind.Commands deployment given
            (Operation.runMessages deployment (portions.map kind.message)) ∧
          ∀ trace outcome,
            (Operation.runMessages deployment (portions.map kind.message)).Yields trace outcome →
              ∀ error, outcome ≠ .error (.indexing error)) ∧
      ∀ handler snapshot, handler.repository = .of snapshot → snapshot.Distinct → ids.Nodup →
        HandsOverOnce kind handler snapshot ids portions :=
  ⟨batches IndexMessage.maxIds ids, isPortioned_batches ids,
    fun _ _ => yields_queueBatches_iff kind ids,
    fun _ _ concerns => ⟨commands_runMessages concerns, fun _ _ run =>
      Operation.ne_indexing_of_runMessages run⟩,
    fun _ _ known distinct once => handsOverOnce_batches known distinct once _⟩

namespace RequestKind.Sample

/-- Three courses, the last of which is not asked for. -/
def catalogue : Snapshot where
  courses := [⟨{ id := 50, title := "Anatomy" }, [{ id := 7 }]⟩,
    ⟨{ id := 3, title := "Physiology" }, []⟩, ⟨{ id := 99, title := "Ethics" }, [{ id := 8 }]⟩]

/-- One id more than fit into a request. -/
def listed : List Int :=
  (List.range 51).map Int.ofNat

def deployment : Deployment :=
  .new true "5m" 1000 (.of catalogue)

/-- The ids from zero to fifty make two requests, by which two of the three courses come to their
indexer. -/
theorem ids_reach_curriculum :
    let kind := RequestKind.courses .epoch
    kind.Concerns deployment.handler.repository listed listed ∧
      deployment.handler.repository = .of catalogue ∧ catalogue.Distinct ∧ listed.Nodup ∧
      ∃ portions, IsPortioned listed portions ∧ portions.length = 2 ∧
        kind.Commands deployment listed
          (Operation.runMessages deployment (portions.map kind.message)) ∧
        HandsOverOnce kind deployment.handler catalogue listed portions := by
  have concerns : (courses .epoch).Concerns deployment.handler.repository listed listed :=
    .inl ⟨by decide, rfl⟩
  have distinct : catalogue.Distinct := ⟨by decide, by decide, by decide, by decide⟩
  have once : listed.Nodup := by decide
  obtain ⟨portions, portioned, -, commands, hands⟩ := ids_reach_indexers (courses .epoch) listed
  exact ⟨concerns, rfl, distinct, once, portions, portioned, portioned.count,
    (commands deployment listed concerns).1, hands deployment.handler catalogue rfl distinct once⟩

end RequestKind.Sample

end LearningIndex
