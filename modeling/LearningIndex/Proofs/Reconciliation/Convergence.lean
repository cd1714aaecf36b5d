import LearningIndex.Proofs.Reconciliation.Succession

/-!
# Learning materials and descriptors after a run

When all messages of a run went well, the index of learning materials holds exactly the materials
with a file, and the index of descriptors exactly the known descriptors.  Another run over the same
snapshot then has nothing to do for them.
-/

namespace LearningIndex

open Calendar (Instant)

namespace Effect

variable {σ κ : Type}

/-- The effects bring the known ids that an index lacks and remove the unknown ones that it holds,
and nothing else. -/
structure Aligning (effects : List Effect) (documents : List Document) (index field : String)
    (value : κ → Json) (legible : κ → Prop) (known : List κ) : Prop where
  /-- A known id that is missing is brought. -/
  brought : ∀ id ∈ known, (¬ ∃ document ∈ documents, document.get? field = some (value id)) →
    ∃ effect ∈ effects, effect.Brings index fun fields => fields.get? field = some (value id)
  /-- What is brought is known. -/
  bringing : ∀ effect ∈ effects, ∀ id,
    (effect.Brings index fun fields => fields.get? field = some (value id)) → id ∈ known
  /-- An unknown id is removed. -/
  removed : ∀ document ∈ documents, ∀ id, legible id → id ∉ known →
    document.get? field = some (value id) → ∃ effect ∈ effects, effect.Removes index document.source
  /-- What is removed is unknown. -/
  removing : ∀ effect ∈ effects, ∀ fields, effect.Removes index fields →
    ∃ id, id ∉ known ∧ fields.get? field = some (value id)
  /-- A document is replaced by one about the same entity only. -/
  faithful : ∀ document ∈ documents, ∀ id, document.get? field = some (value id) →
    ∀ effect ∈ effects, effect.Writes index document.id →
      effect.Brings index fun fields => fields.get? field = some (value id)

/-- After effects that align an index with known ids it holds these and no others. -/
theorem Settled.exists_document_iff_mem {backend : Backend σ} (exact : backend.Exact)
    {index field : String} {initial state : σ} {effects : List Effect}
    (settled : Settled backend index initial effects state) (timeless : field ≠ Fields.timeField)
    {value : κ → Json} (injective : Function.Injective value) {legible : κ → Prop} {known : List κ}
    (aligning : Aligning effects (backend.documents initial index) index field value legible known)
    {id : κ} (read : legible id) :
    (∃ document ∈ backend.documents state index, document.get? field = some (value id)) ↔
      id ∈ known := by
  have outcome := settled.exists_document_iff exact
    (fun same shown => (Fields.get?_eq_of_lasting_eq timeless same).symm.trans shown)
    (fun document member => aligning.faithful document member id)
  refine outcome.trans ⟨?_, fun inside => ?_⟩
  · rintro (⟨effect, member, brings⟩ | ⟨document, member, shown, spared⟩)
    · exact aligning.bringing effect member id brings
    · by_contra unknown
      obtain ⟨effect, inside, removes⟩ := aligning.removed document member id read unknown shown
      exact spared effect inside removes
  · by_cases held : ∃ document ∈ backend.documents initial index,
        document.get? field = some (value id)
    · obtain ⟨document, member, shown⟩ := held
      refine .inr ⟨document, member, shown, fun effect taken removes => ?_⟩
      obtain ⟨other, unknown, shown'⟩ := aligning.removing effect taken _ removes
      obtain rfl : id = other := injective (Option.some.inj (shown.symm.trans shown'))
      exact unknown inside
    · exact .inl (aligning.brought id inside held)

end Effect

namespace Installation

open Effect (Aligning Settled)
open Reconciliation (inventory mem_plan_iff Regular)

variable {σ : Type} {installation : Installation σ} {begun : σ} {stamp : Instant}

theorem target_of_index_eq {message : IndexMessage} {index : String}
    (changes : (installation.effect message).index = index) : message.target = index :=
  (Reconciliation.index_effect message).symm.trans changes

/-- An index in which every document is about one entity, and the messages by which a run changes
it. -/
structure Register (κ : Type) where
  index : String
  field : String
  value : κ → Json
  IsAbout : Document → κ → Prop
  /-- The message that asks for some entities. -/
  request : List κ → IndexMessage
  removal : κ → IndexMessage

namespace Register

def materials : Register Int where
  index := LearningMaterialIndexer.indexName
  field := LearningMaterialIndexer.idField
  value := .integer
  IsAbout := LearningMaterialIndexer.IsPieceOf
  request ids := .indexLearningMaterials ids false
  removal := .deleteLearningMaterial

/-- The index of descriptors in a run with some stamp. -/
def descriptors (stamp : Instant) : Register String where
  index := MeshIndexer.indexName
  field := MeshIndexer.idField
  value := .string
  IsAbout := MeshDescriptor.IsEntryOf
  request ids := .indexMeshDescriptors ids stamp
  removal := .deleteMeshDescriptor

variable {κ : Type} [DecidableEq κ]

/-- A plan requests the known ids that an index lacks and removes those that it should not hold. -/
structure Compares (register : Register κ) (installation : Installation σ)
    (plan : List IndexMessage) (present : List Document) (legible : κ → Prop)
    (known held : List κ) : Prop where
  /-- The messages about the index are planned for what is missing and for what is stale. -/
  planned : ∀ message : IndexMessage, message.target = register.index →
    (message ∈ plan ↔
      message ∈ (batches IndexMessage.maxIds (absentFrom held known)).map register.request ++
        (absentFrom known held).map register.removal)
  /-- What the index holds is what its documents show. -/
  held : ∀ id, id ∈ held ↔
    legible id ∧ ∃ document ∈ present, document.get? register.field = some (register.value id)
  /-- A request writes documents of the known ids that it names, and no others. -/
  requested : ∀ ids, ∃ documents,
    installation.effect (register.request ids) = .write register.index documents ∧
      (∀ document ∈ documents, ∃ id ∈ ids, register.IsAbout document id) ∧
        ∀ id ∈ ids, id ∈ known → ∃ document ∈ documents, register.IsAbout document id
  /-- A removal removes the documents that show the id. -/
  removed : ∀ id, installation.effect (register.removal id) =
    .remove register.index register.field (register.value id)
  /-- A document shows the id of its entity. -/
  shown : ∀ {document id}, register.IsAbout document id →
    document.get? register.field = some (register.value id)
  /-- No document has the place of one of another entity. -/
  apart : ∀ {document other id id'}, register.IsAbout document id → register.IsAbout other id' →
    document.id = other.id → id = id'
  /-- Every document is about an entity. -/
  present : ∀ document ∈ present, ∃ id, register.IsAbout document id

variable {register : Register κ} {plan : List IndexMessage} {present : List Document}
variable {legible : κ → Prop} {known held : List κ}

/-- What the planned messages do to the index. -/
theorem Compares.mem_effects (compares : register.Compares installation plan present legible known
      held) {effect : Effect} (taken : effect ∈ plan.map installation.effect)
    (about : effect.index = register.index) :
    (∃ ids ∈ batches IndexMessage.maxIds (absentFrom held known),
        effect = installation.effect (register.request ids)) ∨
      ∃ id ∈ absentFrom known held,
        effect = .remove register.index register.field (register.value id) := by
  obtain ⟨message, planned, rfl⟩ := List.mem_map.mp taken
  have member := (compares.planned message (target_of_index_eq about)).mp planned
  rcases List.mem_append.mp member with requested | removed
  · obtain ⟨ids, portion, rfl⟩ := List.mem_map.mp requested
    exact .inl ⟨ids, portion, rfl⟩
  · obtain ⟨id, stale, rfl⟩ := List.mem_map.mp removed
    exact .inr ⟨id, stale, compares.removed id⟩

/-- A plan that compares an index with the known ids brings it in line with them. -/
theorem Compares.aligning (compares : register.Compares installation plan present legible known
      held) (injective : Function.Injective register.value) :
    Aligning (plan.map installation.effect) present register.index register.field register.value
      legible known where
  brought id inside missing := by
    have absent : id ∈ absentFrom held known := by
      rw [absentFrom_eq_filter, List.mem_filter, decide_eq_true_eq]
      exact ⟨inside, fun found => missing ((compares.held id).mp found).2⟩
    obtain ⟨ids, portion, among⟩ := exists_mem_batches absent
    obtain ⟨documents, writes, -, covered⟩ := compares.requested ids
    obtain ⟨document, written, about⟩ := covered id among inside
    have target := target_of_index_eq (congrArg Effect.index writes)
    have planned := (compares.planned _ target).mpr
      (List.mem_append_left _ (List.mem_map_of_mem portion))
    refine ⟨_, List.mem_map_of_mem planned, ?_⟩
    rw [writes]
    exact ⟨rfl, document, written, compares.shown about⟩
  bringing effect taken id brings := by
    rcases compares.mem_effects taken (Effect.index_eq_of_brings brings) with
      ⟨ids, portion, rfl⟩ | ⟨_, _, rfl⟩
    · obtain ⟨documents, writes, asked, -⟩ := compares.requested ids
      rw [writes] at brings
      obtain ⟨_, document, written, shown⟩ := brings
      obtain ⟨other, among, about⟩ := asked document written
      obtain rfl := injective (Option.some.inj ((compares.shown about).symm.trans shown))
      have missing := mem_of_mem_batches portion among
      rw [absentFrom_eq_filter] at missing
      exact List.mem_of_mem_filter missing
    · exact brings.elim
  removed document member id read unknown shown := by
    have stale : id ∈ absentFrom known held := by
      rw [absentFrom_eq_filter, List.mem_filter, decide_eq_true_eq]
      exact ⟨(compares.held id).mpr ⟨read, document, member, shown⟩, unknown⟩
    have target := target_of_index_eq (congrArg Effect.index (compares.removed id))
    have planned := (compares.planned _ target).mpr
      (List.mem_append_right _ (List.mem_map_of_mem stale))
    refine ⟨_, List.mem_map_of_mem planned, ?_⟩
    rw [compares.removed id]
    exact ⟨rfl, shown⟩
  removing effect taken fields removes := by
    rcases compares.mem_effects taken (Effect.index_eq_of_removes removes) with
      ⟨ids, _, rfl⟩ | ⟨id, stale, rfl⟩
    · obtain ⟨documents, writes, -⟩ := compares.requested ids
      rw [writes] at removes
      exact removes.elim
    · rw [absentFrom_eq_filter, List.mem_filter, decide_eq_true_eq] at stale
      exact ⟨id, stale.2, removes.2⟩
  faithful document member id shown effect taken writes := by
    rcases compares.mem_effects taken (Effect.index_eq_of_writes writes) with
      ⟨ids, _, rfl⟩ | ⟨_, _, rfl⟩
    · obtain ⟨documents, written, asked, -⟩ := compares.requested ids
      rw [written] at writes ⊢
      obtain ⟨_, twin, inside, same⟩ := writes
      obtain ⟨other, _, about⟩ := asked twin inside
      -- What is written in the place of a document is about the same entity.
      obtain ⟨own, about'⟩ := compares.present document member
      obtain rfl := compares.apart about about' same
      exact ⟨rfl, twin, inside,
        (compares.shown about).trans ((compares.shown about').symm.trans shown)⟩
    · exact writes.elim

end Register

theorem compares_materials (readable : ∀ path, ∃ text, installation.backend.files path = .ok text)
    (orderly : Orderly installation.backend begun) :
    Register.materials.Compares installation (installation.plan stamp begun)
      (installation.backend.documents begun LearningMaterialIndexer.indexName)
      (Json.isSigned64 · = true) installation.snapshot.fileLearningMaterialIds
      (inventory installation.backend begun).materials where
  planned message target := by
    rcases IndexMessage.exists_of_target_materials target with ⟨ids, force, rfl⟩ | ⟨id, rfl⟩ <;>
      simp [plan, mem_plan_iff, Reconciliation.IsPlanned, Register.materials,
        Reconciliation.missingMaterials, Reconciliation.staleMaterials]
  held _ := Catalog.mem_integers_iff
  requested ids := by
    refine ⟨_, rfl, fun document => Reconciliation.exists_isPieceOf, fun id inside known => ?_⟩
    obtain ⟨material, among, rfl⟩ := List.mem_map.mp known
    have found : material ∈ installation.snapshot.findLearningMaterials ids :=
      List.mem_filter.mpr ⟨List.mem_of_mem_filter among, by simpa using inside⟩
    obtain ⟨documents, built⟩ := LearningMaterialIndexer.documentsWith_isOk readable
      (.new true installation.keepAlive installation.uploadLimit)
      (installation.snapshot.findLearningMaterials ids)
    obtain ⟨_, written, ordinal, chunk, rfl⟩ :=
      LearningMaterialIndexer.exists_mem_documentsWith built found
    rw [built]
    exact ⟨_, written, LearningMaterialIndexer.isPieceOf_chunkDocument material ordinal chunk⟩
  removed _ := rfl
  shown := (·.field)
  apart := (·.eq_of_id_eq)
  present document member := by
    obtain ⟨id, _, piece⟩ := (orderly _ document member).piece rfl
    exact ⟨id, piece⟩

theorem compares_descriptors (orderly : Orderly installation.backend begun) :
    (Register.descriptors stamp).Compares installation (installation.plan stamp begun)
      (installation.backend.documents begun MeshIndexer.indexName) (fun _ => True)
      installation.snapshot.meshDescriptorIds
      (inventory installation.backend begun).descriptors where
  planned message target := by
    rcases IndexMessage.exists_of_target_mesh target with ⟨ids, time, rfl⟩ | ⟨id, rfl⟩ <;>
      simp [plan, mem_plan_iff, Reconciliation.IsPlanned, Register.descriptors,
        Reconciliation.missingDescriptors, Reconciliation.staleDescriptors, @eq_comm _ stamp]
  held _ := Catalog.mem_texts_iff.trans (and_iff_right trivial).symm
  requested ids := by
    refine ⟨_, rfl, fun document => Reconciliation.exists_isEntryOf, fun id inside known => ?_⟩
    obtain ⟨descriptor, among, rfl⟩ := List.mem_map.mp known
    exact ⟨_, List.mem_map_of_mem (List.mem_filter.mpr ⟨among, by simpa using inside⟩),
      MeshDescriptor.isEntryOf_document descriptor ""⟩
  removed _ := rfl
  shown := (·.field)
  apart entry entry' same := entry.named.symm.trans (same.trans entry'.named)
  present document member := (orderly _ document member).entry rfl

theorem aligning_materials (readable : ∀ path, ∃ text, installation.backend.files path = .ok text)
    (orderly : Orderly installation.backend begun) :
    Aligning ((installation.plan stamp begun).map installation.effect)
      (installation.backend.documents begun LearningMaterialIndexer.indexName)
      LearningMaterialIndexer.indexName LearningMaterialIndexer.idField Json.integer
      (Json.isSigned64 · = true) installation.snapshot.fileLearningMaterialIds :=
  (compares_materials readable orderly).aligning fun _ _ => Json.integer.inj

theorem aligning_descriptors (orderly : Orderly installation.backend begun) :
    Aligning ((installation.plan stamp begun).map installation.effect)
      (installation.backend.documents begun MeshIndexer.indexName)
      MeshIndexer.indexName MeshIndexer.idField Json.string (fun _ => True)
      installation.snapshot.meshDescriptorIds :=
  Register.Compares.aligning (compares_descriptors orderly) fun _ _ => Json.string.inj

section Converged

variable {last : Interplay σ ReconciliationReport} {report : ReconciliationReport}

/-- Whether courses were ingested before the run matters to the curriculum index only. -/
theorem regular_of_ne (distinct : installation.snapshot.Distinct)
    (fits : installation.snapshot.Fits) (index : String)
    (other : index ≠ CurriculumIndexer.indexName) : Regular installation stamp begun index := by
  refine ⟨distinct.within index, fun message planned known => ?_⟩
  exact Reconciliation.isFresh_of_mem_plan fits
    (fun about => absurd (known.symm.trans about) other) planned

/-- After a run that went well an index holds what the plan makes of it. -/
theorem Concluded.settled_plan (concluded : installation.Concluded begun last (.ok report))
    (well : ∀ entry ∈ last.handled, entry.2 = .ok true) {index : String}
    (regular : Regular installation (installation.stamp begun) begun index) :
    Settled installation.backend index begun
      ((installation.plan (installation.stamp begun) begun).map installation.effect)
      last.world := by
  have settled := concluded.settled index regular (.inr fun entry member _ => well entry member)
  rw [concluded.run.eq_plan.1] at settled
  exact settled

/-- The materials and the descriptors of the indexes are those of the snapshot. -/
structure HoldsKnown (installation : Installation σ) (state : σ) : Prop where
  materials : ∀ id, id ∈ (inventory installation.backend state).materials ↔
    id ∈ installation.snapshot.fileLearningMaterialIds
  descriptors : ∀ id, id ∈ (inventory installation.backend state).descriptors ↔
    id ∈ installation.snapshot.meshDescriptorIds

theorem HoldsKnown.of_sameDocuments {before after : σ}
    (known : installation.HoldsKnown before)
    (same : installation.backend.SameDocuments before after) : installation.HoldsKnown after := by
  have found : inventory installation.backend after = inventory installation.backend before := by
    simp only [inventory, same _]
  exact ⟨found ▸ known.materials, found ▸ known.descriptors⟩

/-- Where the indexes hold what is known, nothing is planned for materials and descriptors. -/
theorem HoldsKnown.target_eq (known : installation.HoldsKnown begun) {message : IndexMessage}
    (planned : message ∈ installation.plan stamp begun) :
    message.target = CurriculumIndexer.indexName := by
  have portions {κ : Type} {ids : List κ} {batch : List κ}
      (member : batch ∈ batches IndexMessage.maxIds ids) (empty : ids = []) : False := by
    rw [empty, batches_eq_nil_iff.mpr rfl] at member
    exact List.not_mem_nil member
  have outcome := mem_plan_iff.mp planned
  cases message with
  | indexLearningMaterials ids force =>
      refine (portions outcome.1 ?_).elim
      simp [Reconciliation.missingMaterials, known.materials]
  | indexMeshDescriptors ids time =>
      refine (portions outcome.1 ?_).elim
      simp [Reconciliation.missingDescriptors, known.descriptors]
  | deleteLearningMaterial id =>
      simp [Reconciliation.IsPlanned, Reconciliation.staleMaterials, known.materials] at outcome
  | deleteMeshDescriptor id =>
      simp [Reconciliation.IsPlanned, Reconciliation.staleDescriptors, known.descriptors] at outcome
  | _ => rfl

theorem Concluded.holdsKnown (exact : installation.backend.Exact)
    (readable : ∀ path, ∃ text, installation.backend.files path = .ok text)
    (distinct : installation.snapshot.Distinct) (fits : installation.snapshot.Fits)
    (orderly : Orderly installation.backend begun)
    (concluded : installation.Concluded begun last (.ok report))
    (well : ∀ entry ∈ last.handled, entry.2 = .ok true) : installation.HoldsKnown last.world where
  materials id := by
    have settled := concluded.settled_plan well
      (regular_of_ne distinct fits LearningMaterialIndexer.indexName (by decide))
    have held (read : Json.isSigned64 id = true) := settled.exists_document_iff_mem exact
      (by decide) (fun _ _ => Json.integer.inj) (aligning_materials readable orderly) read
    constructor
    · intro indexed
      obtain ⟨read, found⟩ := Catalog.mem_integers_iff.mp indexed
      exact (held read).mp found
    · intro inside
      have read := Reconciliation.isSigned64_of_mem_fileLearningMaterialIds fits inside
      exact Catalog.mem_integers_iff.mpr ⟨read, (held read).mpr inside⟩
  descriptors id := by
    have settled := concluded.settled_plan well
      (regular_of_ne distinct fits MeshIndexer.indexName (by decide))
    exact Catalog.mem_texts_iff.trans (settled.exists_document_iff_mem exact (by decide)
      (fun _ _ => Json.string.inj) (aligning_descriptors orderly) trivial)

/-- A run that went well brings materials and descriptors in line, and a later run over the same
snapshot hands over no message about them. -/
theorem holdsKnown_of_incremental (exact : installation.backend.Exact)
    (readable : ∀ path, ∃ text, installation.backend.files path = .ok text)
    (distinct : installation.snapshot.Distinct) (fits : installation.snapshot.Fits)
    (reachable : Reachable installation.backend begun) (reached : installation.Reaches begun last)
    (ends : last.Ends (.ok report)) (well : ∀ entry ∈ last.handled, entry.2 = .ok true) :
    installation.HoldsKnown last.world ∧
      ∀ again, installation.backend.SameDocuments last.world again →
        ∀ state, installation.Reaches again state → ∀ message ∈ state.dispatched,
          message.target ≠ LearningMaterialIndexer.indexName ∧
            message.target ≠ MeshIndexer.indexName := by
  have orderly := reachable.orderly exact
  have concluded := reached.concluded exact fits ends
  have known := concluded.holdsKnown exact readable distinct fits orderly well
  refine ⟨known, fun again same state reached' message sent => ?_⟩
  have target := (known.of_sameDocuments same).target_eq
    ((reached'.isPrefix_dispatched exact fits).subset sent)
  rw [target]
  decide

end Converged

namespace Sample

/-- A material and a descriptor that the later sample does not have. -/
def gone : Snapshot where
  learningMaterials := [⟨99, "Cells", none, none, some "cells"⟩]
  meshDescriptors := [⟨"D9", "Cell", none, [], []⟩]

def piece : Document :=
  LearningMaterialIndexer.chunkDocument ⟨99, "Cells", none, none, some "cells"⟩ 0 []

def entry : Document :=
  MeshDescriptor.document ⟨"D9", "Cell", none, [], []⟩ noon.bound

def additions : List BulkOperation :=
  [.index LearningMaterialIndexer.indexName piece, .index MeshIndexer.indexName entry]

/-- The earlier sample with the two documents besides. -/
def crowded : Memory :=
  additions.foldl Memory.write Sample.begun

theorem reachable_crowded (snapshot : Snapshot) :
    Reachable (system snapshot).backend crowded := by
  have fits : gone.Fits := ⟨by decide, by decide, by decide⟩
  have built : LearningMaterialIndexer.documentsWith (fun _ => .ok none) (.new true "1m" 8000000)
      (gone.findLearningMaterials [99]) = .ok [piece] := rfl
  have added := (reachable_begun snapshot).handling fits "1m" 8000000
    (.indexLearningMaterials [99] true)
    (LearningMaterialIndexer.asks_bulk "1m" 8000000 built (List.cons_ne_nil _ _))
  exact added.handling fits "1m" 8000000 (.indexMeshDescriptors ["D9"] noon)
    (MeshIndexer.asks_bulk "1m" 8000000 (by decide) noon noon)

theorem length_crowded_le (index : String) : (crowded.shelf index).length ≤ 4 := by
  have courses : (Sample.begun.shelf index).length ≤
      (earlier.courseDocuments earlier.courseIds).length :=
    @Memory.length_holding_le (fun _ => .ok none) earlier .epoch noon index
  exact (Memory.length_shelf_writes_le additions _ index).trans (Nat.add_le_add_right courses 2)

theorem stale_crowded (snapshot : Snapshot) :
    99 ∈ (inventory (system snapshot).backend crowded).materials ∧
      "D9" ∈ (inventory (system snapshot).backend crowded).descriptors := by
  have kept : crowded.shelf LearningMaterialIndexer.indexName =
      (Sample.begun.write (.index LearningMaterialIndexer.indexName piece)).shelf
        LearningMaterialIndexer.indexName :=
    @Memory.shelf_writes_of_ne [.index MeshIndexer.indexName entry] _
      (List.forall_mem_singleton.mpr (by decide)) _
  have first : piece ∈ crowded.shelf LearningMaterialIndexer.indexName :=
    kept ▸ Memory.mem_shelf_write _ piece (by decide)
  have second : entry ∈ crowded.shelf MeshIndexer.indexName :=
    Memory.mem_shelf_write _ entry (by decide)
  exact ⟨Catalog.mem_integers_iff.mpr ⟨by decide, piece, first,
      LearningMaterialIndexer.get?_chunkDocument _ _ _⟩,
    Catalog.mem_texts_iff.mpr ⟨entry, second, MeshDescriptor.get?_document _ _⟩⟩

/-- A run over the later sample brings its materials and descriptors in, and removes the others. -/
theorem holdsKnown_after_crowded :
    99 ∈ (inventory (system current).backend crowded).materials ∧
    "D9" ∈ (inventory (system current).backend crowded).descriptors ∧
    ∃ last report, (system current).Reaches crowded last ∧ last.Ends (.ok report) ∧
      (system current).HoldsKnown last.world ∧
        ∀ again, (system current).backend.SameDocuments last.world again →
          ∀ state, (system current).Reaches again state → ∀ message ∈ state.dispatched,
            message.target ≠ LearningMaterialIndexer.indexName ∧
              message.target ≠ MeshIndexer.indexName := by
  have success : ∃ last report, (system current).Reaches crowded last ∧ last.Ends (.ok report) ∧
      ∀ entry ∈ last.handled, entry.2 = .ok true :=
    exists_success (Memory.exact_backend _) (Memory.neverFails_backend _)
      (fun _ => ⟨none, rfl⟩) fits_current fun index =>
        (length_crowded_le index).trans (by decide)
  obtain ⟨last, report, reached, ends, well⟩ := success
  refine ⟨(stale_crowded current).1, (stale_crowded current).2, last, report, reached, ends, ?_⟩
  exact holdsKnown_of_incremental (Memory.exact_backend _) (fun _ => ⟨none, rfl⟩)
    distinct_current fits_current (reachable_crowded current) reached ends well

end Sample

end Installation
end LearningIndex
