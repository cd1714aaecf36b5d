import LearningIndex.Proofs.Handling.Writing
import Mathlib.Data.Set.List

/-!
# Calls among others

A call of an indexer finds out which of its entities to write and then writes them.  While others
change the indexes, it may find out about different entities at different moments: what it picks was
not passed over at some moment, and what it leaves was passed over at some moment.
-/

namespace LearningIndex

open Calendar (Instant)

/-- A call of one of the indexers. -/
inductive IndexCall where
  /-- Index learning materials, the present ones only if forced. -/
  | learningMaterials (entities : List Entity) (force : Bool)
  /-- Index the courses that were not ingested since the stamp. -/
  | courses (entities : List Entity) (stamp : Instant)
  | descriptors (entities : List Entity) (stamp : Instant)

namespace IndexCall

def kind : IndexCall → EntityKind
  | learningMaterials _ _ => .learningMaterial
  | courses _ _ => .course
  | descriptors _ _ => .meshDescriptor

def entities : IndexCall → List Entity
  | learningMaterials entities _ | courses entities _ | descriptors entities _ => entities

def task (keepAlive : String) (uploadLimit : Nat) : IndexCall → Task Bool
  | learningMaterials entities force =>
    (LearningMaterialIndexer.new true keepAlive uploadLimit).index entities force
  | courses entities stamp => (CurriculumIndexer.new true keepAlive).index entities stamp
  | descriptors entities stamp => (MeshIndexer.new true keepAlive).index entities stamp

/-- The indexer accepts all entities. -/
def IsUniform (call : IndexCall) : Prop :=
  ∀ entity ∈ call.entities, entity.kind = call.kind

/-- Which documents of an entity make the call pass over it; a forced call passes over none. -/
def condition? : IndexCall → Option (Option (String × Instant))
  | learningMaterials _ force => if force then none else some none
  | courses _ stamp => some (some (CurriculumIndexer.ingestTimeField, stamp))
  | descriptors _ stamp => some (some (MeshIndexer.ingestTimeField, stamp))

variable {σ : Type}

/-- The call passes over the entity with a key: the index holds it, recently enough if that matters,
and the call is not forced. -/
def PassesOver (call : IndexCall) (backend : Backend σ) (state : σ) (key : Json) : Prop :=
  ∃ since ∈ call.condition?,
    Catalog.Occurs backend state call.kind.home call.kind.keyField since key

/-- What a call picks to be written, while the state moves. -/
structure Picks (backend : Backend σ) (move : σ → σ → Prop) (call : IndexCall) (state after : σ)
    (picked : List Entity) : Prop where
  within : picked ⊆ call.entities
  /-- What is picked was not passed over at some moment. -/
  due : ∀ entity ∈ picked, ∃ moment, move state moment ∧ move moment after ∧
    ¬ call.PassesOver backend moment entity.key
  /-- What is left was passed over at some moment. -/
  passed : ∀ entity ∈ call.entities, entity ∉ picked →
    ∃ moment, move state moment ∧ move moment after ∧ call.PassesOver backend moment entity.key
  moved : move state after

section Picking

variable {backend : Backend σ} {move : σ → σ → Prop} {call : IndexCall} {state middle after : σ}
variable {picked : List Entity}

theorem Picks.later (tolerates : backend.Tolerates move)
    (picks : Picks backend move call state middle picked) (more : move middle after) :
    Picks backend move call state after picked where
  within := picks.within
  due entity inside := by
    obtain ⟨moment, before, behind, due⟩ := picks.due entity inside
    exact ⟨moment, before, tolerates.trans behind more, due⟩
  passed entity listed outside := by
    obtain ⟨moment, before, behind, passed⟩ := picks.passed entity listed outside
    exact ⟨moment, before, tolerates.trans behind more, passed⟩
  moved := tolerates.trans picks.moved more

theorem picks_all (tolerates : backend.Tolerates move) (unconditional : call.condition? = none)
    (moved : move state after) : Picks backend move call state after call.entities where
  within := List.Subset.refl _
  due entity _ := by
    refine ⟨state, tolerates.refl state, moved, ?_⟩
    rintro ⟨since, asked, _⟩
    rw [unconditional] at asked
    cases asked
  passed entity listed outside := absurd listed outside
  moved := moved

theorem picks_unskipped {κ α : Type} [Key κ] [DecidableEq κ] {items : List α} {entity : α → Entity}
    {key : α → κ} {skip : SkipSet κ} {since : Option (String × Instant)}
    (listed : call.entities = items.map entity)
    (keyed : ∀ item, (entity item).key = Key.toJson (key item))
    (asked : call.condition? = some since)
    (observed : Catalog.Observed move state after
      (fun moment id => Catalog.Occurs backend moment call.kind.home call.kind.keyField since
        (Key.toJson id)) (items.map key) (skip.contains · = true)) :
    Picks backend move call state after
      ((items.filter fun item => !skip.contains (key item)).map entity) where
  within := listed ▸ List.map_subset entity (List.filter_subset_self _)
  due := by
    intro _ inside
    obtain ⟨item, kept, rfl⟩ := List.mem_map.mp inside
    obtain ⟨member, unskipped⟩ := List.mem_filter.mp kept
    obtain ⟨moment, before, behind, missing⟩ :=
      observed.absent (key item) (List.mem_map_of_mem member) (by simpa using unskipped)
    refine ⟨moment, before, behind, ?_⟩
    rintro ⟨other, same, occurs⟩
    obtain rfl := Option.some.inj (asked.symm.trans same)
    exact missing (keyed item ▸ occurs)
  passed := by
    intro _ inside outside
    rw [listed] at inside
    obtain ⟨item, member, rfl⟩ := List.mem_map.mp inside
    have skipped : skip.contains (key item) = true := by
      by_contra kept
      exact outside (List.mem_map_of_mem (List.mem_filter.mpr ⟨member, by simpa using kept⟩))
    obtain ⟨_, moment, before, behind, occurs⟩ := observed.present (key item) skipped
    exact ⟨moment, before, behind, since, asked, keyed item ▸ occurs⟩
  moved := observed.moved

end Picking

/-- How the first part of a call ends among others: with the documents of what it picks. -/
def Gathers (backend : Backend σ) (indexer : LearningMaterialIndexer) (move : σ → σ → Prop)
    (call : IndexCall) (state : σ) (outcome : Except IndexingError (List Document)) (after : σ) :
    Prop :=
  ∃ time picked, Picks backend move call state after picked ∧
    outcome = Subject.gather time (picked.map (·.subject indexer backend.files))

/-- The call writes what it gathers, and it gathers first, among others that move the state in any
way that the backend tolerates. -/
def GathersFirst (backend : Backend σ) (keepAlive : String) (uploadLimit : Nat)
    (call : IndexCall) : Prop :=
  ∃ prelude, call.task keepAlive uploadLimit =
      prelude.andThen (Catalog.write ⟨call.kind.home, keepAlive, true⟩) ∧
    ∀ move, backend.Tolerates move → ∀ state, Program.Ensures backend.serve move move
      (call.Gathers backend (.new true keepAlive uploadLimit) move state) prelude state

section Preludes

variable {backend : Backend σ}

theorem gathersFirst_learningMaterials (exact : backend.Exact) (aggregates : backend.Aggregates)
    (keepAlive : String) (uploadLimit : Nat) {materials : List LearningMaterial}
    (fits : ∀ material ∈ materials, Json.isSigned64 material.id = true) (force : Bool) :
    (IndexCall.learningMaterials (materials.map .learningMaterial) force).GathersFirst backend
      keepAlive uploadLimit := by
  let call : IndexCall := .learningMaterials (materials.map .learningMaterial) force
  let indexer : LearningMaterialIndexer := .new true keepAlive uploadLimit
  refine ⟨_, LearningMaterialIndexer.index_eq_andThen_write keepAlive uploadLimit materials force,
    fun move tolerates state => ?_⟩
  have skipped : Program.Ensures backend.serve move move (fun outcome after => ∃ skip,
      outcome = .ok skip ∧ Picks backend move call state after
        ((materials.filter fun material => !skip.contains material.id).map .learningMaterial))
      (indexer.skipped materials force) state := by
    cases force with
    | true =>
        intro after moved
        refine ⟨.empty, rfl, ?_⟩
        rw [filter_unskipped fun _ _ => rfl]
        exact picks_all tolerates rfl moved
    | false =>
        have legible : ∀ id ∈ materials.map (·.id), Key.ofJson (Key.toJson id) = .ok id := by
          intro id member
          obtain ⟨material, inside, rfl⟩ := List.mem_map.mp member
          exact Key.ofJson_toJson_of_isSigned64 (fits material inside)
        have enabled : indexer.catalog.enabled = true := rfl
        refine (Catalog.skipSet_observes aggregates tolerates enabled
          LearningMaterialIndexer.idField legible none state).mono ?_
        rintro _ after ⟨skip, rfl, observed⟩
        exact ⟨skip, rfl, picks_unskipped rfl (fun _ => rfl) rfl observed⟩
  refine Program.Ensures.andThen tolerates.refl (skipped.mono ?_)
  rintro _ middle ⟨skip, rfl, picks⟩
  refine (LearningMaterialIndexer.documentsOf_ensures exact tolerates
    (fun path later => tolerates.calm (exact.sameDocuments (.file path) (fun _ => id) later))
    indexer _ middle).mono ?_
  rintro _ after ⟨moved, rfl⟩
  refine ⟨"", _, picks.later tolerates moved, ?_⟩
  rw [Subject.documentsWith_eq_gather indexer backend.files "", List.map_map]
  rfl

theorem gathersFirst_courses (aggregates : backend.Aggregates) (keepAlive : String)
    (uploadLimit : Nat) {courses : List CompositeCourse}
    (fits : ∀ composite ∈ courses, Json.isSigned64 composite.course.id = true) (stamp : Instant) :
    (IndexCall.courses (courses.map .course) stamp).GathersFirst backend keepAlive uploadLimit := by
  let call : IndexCall := .courses (courses.map .course) stamp
  refine ⟨_, CurriculumIndexer.index_eq_andThen_write keepAlive courses stamp,
    fun move tolerates state => ?_⟩
  have legible : ∀ id ∈ courses.map (·.course.id), Key.ofJson (Key.toJson id) = .ok id := by
    intro id member
    obtain ⟨composite, inside, rfl⟩ := List.mem_map.mp member
    exact Key.ofJson_toJson_of_isSigned64 (fits composite inside)
  refine Program.Ensures.andThen tolerates.refl ((Catalog.skipSet_observes aggregates tolerates
    rfl CurriculumIndexer.courseIdField legible
    (some (CurriculumIndexer.ingestTimeField, stamp)) state).mono ?_)
  rintro _ middle ⟨skip, rfl, observed⟩
  have picks : Picks backend move call state middle
      ((courses.filter fun composite => !skip.contains composite.course.id).map .course) :=
    picks_unskipped rfl (fun _ => rfl) rfl observed
  intro after moved
  refine ⟨"", _, picks.later tolerates moved, ?_⟩
  rw [List.map_map]
  exact (Subject.gather_map_ofCourse "" _).symm

theorem gathersFirst_descriptors (exact : backend.Exact) (aggregates : backend.Aggregates)
    (keepAlive : String) (uploadLimit : Nat) (descriptors : List MeshDescriptor)
    (stamp : Instant) :
    (IndexCall.descriptors (descriptors.map .meshDescriptor) stamp).GathersFirst backend keepAlive
      uploadLimit := by
  let call : IndexCall := .descriptors (descriptors.map .meshDescriptor) stamp
  refine ⟨_, MeshIndexer.index_eq_andThen_write keepAlive descriptors stamp,
    fun move tolerates state => ?_⟩
  refine Program.Ensures.andThen tolerates.refl ((Catalog.skipSet_observes aggregates tolerates
    rfl MeshIndexer.idField (fun _ _ => rfl) (some (MeshIndexer.ingestTimeField, stamp))
    state).mono ?_)
  rintro _ middle ⟨skip, rfl, observed⟩
  have picks : Picks backend move call state middle
      ((descriptors.filter fun descriptor => !skip.contains descriptor.id).map .meshDescriptor) :=
    picks_unskipped rfl (fun _ => rfl) rfl observed
  refine Program.Ensures.andThen tolerates.refl ((MeshIndexer.clock_ensures exact tolerates
    (fun later => tolerates.calm (exact.sameDocuments .clock (fun _ => id) later)) middle).mono ?_)
  rintro _ noon ⟨moved, now, rfl⟩ after more
  refine ⟨now.bound, _, picks.later tolerates (tolerates.trans moved more), ?_⟩
  rw [List.map_map]
  exact (Subject.gather_map_ofDescriptor now.bound _).symm

/-- A call whose entities are all accepted has a list of what its indexer accepts. -/
theorem IsUniform.exists_items {call : IndexCall} (uniform : call.IsUniform) :
    (∃ materials force, call = .learningMaterials (List.map .learningMaterial materials) force) ∨
      (∃ composites stamp, call = .courses (List.map .course composites) stamp) ∨
        ∃ meshes stamp, call = .descriptors (List.map .meshDescriptor meshes) stamp := by
  have listed {α : Type} (entity : α → Entity)
      (all : ∀ item, item.kind = call.kind → item ∈ Set.range entity) :
      call.entities ∈ Set.range (List.map entity) := by
    rw [Set.range_list_map]
    exact fun item inside => all item (uniform item inside)
  cases call with
  | learningMaterials entities force =>
      obtain ⟨materials, rfl⟩ := listed .learningMaterial fun item same => by
        cases item <;> first | exact ⟨_, rfl⟩ | cases same
      exact .inl ⟨materials, force, rfl⟩
  | courses entities stamp =>
      obtain ⟨courses, rfl⟩ := listed .course fun item same => by
        cases item <;> first | exact ⟨_, rfl⟩ | cases same
      exact .inr (.inl ⟨courses, stamp, rfl⟩)
  | descriptors entities stamp =>
      obtain ⟨descriptors, rfl⟩ := listed .meshDescriptor fun item same => by
        cases item <;> first | exact ⟨_, rfl⟩ | cases same
      exact .inr (.inr ⟨descriptors, stamp, rfl⟩)

/-- A call whose entities are all accepted finds out which of them to write and then writes them. -/
theorem gathersFirst (exact : backend.Exact) (aggregates : backend.Aggregates)
    (keepAlive : String) (uploadLimit : Nat) {call : IndexCall}
    (fits : ∀ entity ∈ call.entities, entity.Fits) (uniform : call.IsUniform) :
    call.GathersFirst backend keepAlive uploadLimit := by
  rcases uniform.exists_items with
    ⟨materials, force, rfl⟩ | ⟨courses, stamp, rfl⟩ | ⟨descriptors, stamp, rfl⟩
  · exact gathersFirst_learningMaterials exact aggregates keepAlive uploadLimit
      (List.forall_mem_map.mp fits) force
  · exact gathersFirst_courses aggregates keepAlive uploadLimit
      (fun composite inside => (List.forall_mem_map.mp fits composite inside).1) stamp
  · exact gathersFirst_descriptors exact aggregates keepAlive uploadLimit descriptors stamp

end Preludes

theorem expectAll_eq_error {α : Type} (kind : EntityKind) {accept : Entity → Option α}
    {before after : List Entity} {entity : Entity}
    (accepted : ∀ item ∈ before, (accept item).isSome = true) (refused : accept entity = none) :
    expectAll kind accept (before ++ entity :: after) =
      .error (.invalidInput kind entity.kind) := by
  induction before with
  | nil => simp [expectAll, refused]
  | cons item rest ih =>
      obtain ⟨one, others⟩ := List.forall_mem_cons.mp accepted
      obtain ⟨result, taken⟩ := Option.isSome_iff_exists.mp one
      rw [List.cons_append, expectAll, taken, ih others]
      rfl

/-- The first entity of another kind makes the call fail before it asks anything. -/
theorem task_eq_error (keepAlive : String) (uploadLimit : Nat) {call : IndexCall}
    {before after : List Entity} {entity : Entity}
    (listed : call.entities = before ++ entity :: after)
    (accepted : ∀ item ∈ before, item.kind = call.kind) (other : entity.kind ≠ call.kind) :
    call.task keepAlive uploadLimit =
      .done (.error (.invalidInput call.kind entity.kind)) := by
  have refused {α : Type} (accept : Entity → Option α)
      (accepts : ∀ item, (accept item).isSome = true ↔ item.kind = call.kind) :
      expectAll call.kind accept call.entities =
        .error (.invalidInput call.kind entity.kind) := by
    rw [listed]
    refine expectAll_eq_error call.kind (fun item inside => (accepts item).mpr ?_) ?_
    · exact accepted item inside
    · exact Option.not_isSome_iff_eq_none.mp (mt (accepts entity).mp other)
  cases call with
  | learningMaterials entities force =>
      have failed : expectAll .learningMaterial _ entities = _ :=
        refused Entity.learningMaterial? fun item => by
          cases item <;> simp [Entity.learningMaterial?, Entity.kind, kind]
      change LearningMaterialIndexer.index _ entities force = _
      rw [LearningMaterialIndexer.index, failed]
      rfl
  | courses entities stamp =>
      have failed : expectAll .course _ entities = _ := refused Entity.course? fun item => by
        cases item <;> simp [Entity.course?, Entity.kind, kind]
      change CurriculumIndexer.index _ entities stamp = _
      rw [CurriculumIndexer.index, CurriculumIndexer.outdated, failed]
      rfl
  | descriptors entities stamp =>
      have failed : expectAll .meshDescriptor _ entities = _ :=
        refused Entity.meshDescriptor? fun item => by
          cases item <;> simp [Entity.meshDescriptor?, Entity.kind, kind]
      change MeshIndexer.index _ entities stamp = _
      rw [MeshIndexer.index, failed]
      rfl

theorem exists_error (keepAlive : String) (uploadLimit : Nat) {call : IndexCall}
    (mixed : ¬ call.IsUniform) :
    ∃ error, call.task keepAlive uploadLimit = .done (.error error) := by
  cases found : call.entities.find? fun entity => entity.kind ≠ call.kind with
  | none => exact absurd (by simpa [IsUniform] using found) mixed
  | some entity =>
      obtain ⟨other, before, after, listed, accepted⟩ := List.find?_eq_some_iff_append.mp found
      exact ⟨_, task_eq_error keepAlive uploadLimit listed (by simpa using accepted)
        (by simpa using other)⟩

end IndexCall

end LearningIndex
