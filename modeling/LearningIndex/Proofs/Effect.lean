import LearningIndex.Proofs.Backend

/-!
# Effects on the indexes

A message that is handled well writes some documents or removes those with a value in a field.
Effects that do not meet commute: after any number of them, in any order, what an index holds
follows from what it held before and from which effects took place.
-/

namespace LearningIndex

/-- A change of the documents of an index. -/
inductive Effect where
  /-- Documents are written, each in the place of an earlier one with its id. -/
  | write (index : String) (documents : List Document)
  | remove (index field : String) (value : Json)

namespace Effect

def index : Effect → String
  | write index _ => index
  | remove index _ _ => index

/-- The effect writes a document with the id. -/
def Writes (effect : Effect) (index id : String) : Prop :=
  match effect with
  | write name documents => name = index ∧ ∃ document ∈ documents, document.id = id
  | remove _ _ _ => False

/-- The effect removes documents with the given fields. -/
def Removes (effect : Effect) (index : String) (fields : Fields) : Prop :=
  match effect with
  | write _ _ => False
  | remove name field value => name = index ∧ fields.get? field = some value

/-- The effect brings a document whose fields are of some kind. -/
def Brings (effect : Effect) (index : String) (kind : Fields → Prop) : Prop :=
  match effect with
  | write name documents => name = index ∧ ∃ document ∈ documents, kind document.source
  | remove _ _ _ => False

theorem index_eq_of_brings {effect : Effect} {name : String} {kind : Fields → Prop}
    (brings : effect.Brings name kind) : effect.index = name := by
  cases effect with
  | write _ _ => exact brings.1
  | remove _ _ _ => exact brings.elim

theorem index_eq_of_writes {effect : Effect} {name id : String} (writes : effect.Writes name id) :
    effect.index = name := by
  cases effect with
  | write _ _ => exact writes.1
  | remove _ _ _ => exact writes.elim

theorem index_eq_of_removes {effect : Effect} {name : String} {fields : Fields}
    (removes : effect.Removes name fields) : effect.index = name := by
  cases effect with
  | write _ _ => exact removes.elim
  | remove _ _ _ => exact removes.1

/-- The effect took place between two states and nothing else did, up to the times of ingestion of
the documents that are written. -/
structure Applied {σ : Type} (backend : Backend σ) (effect : Effect) (before after : σ) : Prop where
  written : ∀ index documents, effect = .write index documents → ∀ document ∈ documents,
    backend.lasting after index document.id = some document.source.lasting
  removed : ∀ index id fields, backend.stored before index id = some fields →
    effect.Removes index fields → backend.stored after index id = none
  kept : ∀ index id, ¬ effect.Writes index id →
    (∀ fields, backend.stored before index id = some fields → ¬ effect.Removes index fields) →
      backend.stored after index id = backend.stored before index id

/-- What others do that leave the documents as they are does not matter. -/
theorem Applied.of_sameDocuments {σ : Type} {backend : Backend σ} {effect : Effect}
    {first before after last : σ} (applied : effect.Applied backend before after)
    (start : backend.SameDocuments first before) (finish : backend.SameDocuments after last) :
    effect.Applied backend first last where
  written index documents same document inside := by
    rw [Backend.lasting_eq_of_stored_eq (Backend.stored_eq_of_documents_eq (finish index) _)]
    exact applied.written index documents same document inside
  removed index id fields present removes := by
    rw [Backend.stored_eq_of_documents_eq (finish index)]
    refine applied.removed index id fields ?_ removes
    rw [Backend.stored_eq_of_documents_eq (start index), present]
  kept index id unwritten spared := by
    have begun := Backend.stored_eq_of_documents_eq (start index) id
    rw [Backend.stored_eq_of_documents_eq (finish index), ← begun]
    exact applied.kept index id unwritten (begun ▸ spared)

theorem Applied.write_nil {σ : Type} (backend : Backend σ) (index : String) (state : σ) :
    (write index []).Applied backend state state where
  written := by
    rintro _ _ ⟨⟩
    simp
  removed index id fields present removes := removes.elim
  kept index id unwritten spared := rfl

/-- Which times of ingestion are written does not matter. -/
theorem Applied.write_congr {σ : Type} {backend : Backend σ} {index : String}
    {documents others : List Document} {before after : σ}
    (applied : (write index documents).Applied backend before after)
    (alike : documents.map (fun document => (document.id, document.source.lasting)) =
      others.map fun document => (document.id, document.source.lasting)) :
    (write index others).Applied backend before after where
  written := by
    rintro _ _ ⟨⟩ document member
    have twin : (document.id, document.source.lasting) ∈
        documents.map fun document => (document.id, document.source.lasting) :=
      alike ▸ List.mem_map_of_mem member
    obtain ⟨source, inside, same⟩ := List.mem_map.mp twin
    obtain ⟨ids, fields⟩ := Prod.mk.inj same
    rw [← ids, ← fields]
    exact applied.written index documents rfl source inside
  removed _ _ _ _ removes := removes.elim
  kept := by
    intro name id unwritten spared
    refine applied.kept name id ?_ spared
    rintro ⟨rfl, document, member, rfl⟩
    have twin : (document.id, document.source.lasting) ∈
        others.map fun document => (document.id, document.source.lasting) :=
      alike ▸ List.mem_map_of_mem member
    obtain ⟨source, inside, same⟩ := List.mem_map.mp twin
    exact unwritten ⟨rfl, source, inside, (Prod.mk.inj same).1⟩

section Requests

variable {σ : Type} {backend : Backend σ}

theorem applied_bulk (exact : backend.Exact) {index : String} {documents : List Document}
    (distinct : (documents.map (·.id)).Nodup) {state : σ} {reply : BulkReply}
    (answered : (backend.serve
      (.engine (.bulk (documents.map (BulkOperation.index index)))) state).1 = .ok reply)
    (clean : reply.errors = false) :
    (write index documents).Applied backend state (backend.serve
      (.engine (.bulk (documents.map (BulkOperation.index index)))) state).2 where
  written := by
    rintro _ _ ⟨⟩ document member
    obtain ⟨earlier, later, rfl⟩ := List.append_of_mem member
    refine exact.written _ state reply answered clean (earlier.map (BulkOperation.index index))
      (BulkOperation.index index document) (later.map (BulkOperation.index index)) (by simp) ?_
    intro other inside same
    obtain ⟨twin, written, rfl⟩ := List.mem_map.mp inside
    have twins : twin.id = document.id := congrArg BulkAction.id same
    have apart := (List.nodup_append.mp (List.map_append ▸ distinct)).2.1
    rw [List.map_cons, List.nodup_cons] at apart
    exact apart.1 (List.mem_map.mpr ⟨twin, written, twins⟩)
  removed _ _ _ _ removes := removes.elim
  kept := by
    intro name id unwritten _
    rcases exact.replaced (documents.map (BulkOperation.index index)) state name id with
      same | ⟨operation, member, action, _⟩
    · exact same
    · obtain ⟨document, inside, rfl⟩ := List.mem_map.mp member
      obtain ⟨rfl, rfl⟩ := BulkAction.mk.inj action
      exact absurd ⟨rfl, document, inside, rfl⟩ unwritten

theorem applied_deleteByQuery (exact : backend.Exact) {index field : String} {value : Json}
    {state : σ} {reply : DeleteReply}
    (answered : (backend.serve
      (.engine (.deleteByQuery index (.term field value))) state).1 = .ok reply)
    (clean : reply.isClean = true) :
    (remove index field value).Applied backend state (backend.serve
      (.engine (.deleteByQuery index (.term field value))) state).2 where
  written := by
    rintro _ _ ⟨⟩
  removed := by
    rintro _ id fields present ⟨rfl, valued⟩
    exact exact.removed_term answered clean present valued
  kept := by
    intro name id _ spared
    by_cases same : index = name
    · subst same
      rcases exact.spared_term index field value state id with kept | ⟨_, fields, present, valued⟩
      · exact kept
      · exact absurd ⟨rfl, valued⟩ (spared fields present)
    · let deletion : Service.Request := .engine (.deleteByQuery index (.term field value))
      exact Backend.stored_eq_of_documents_eq (exact.kept deletion state name same) id

end Requests

/-- The second effect neither writes nor removes what the first one writes. -/
def Spares (first second : Effect) : Prop :=
  ∀ index documents, first = .write index documents → ∀ document ∈ documents,
    ¬ second.Writes index document.id ∧
      ∀ fields : Fields, fields.lasting = document.source.lasting → ¬ second.Removes index fields

/-- Neither effect undoes a part of the other. -/
def Independent (first second : Effect) : Prop :=
  Spares first second ∧ Spares second first

theorem Independent.symm {first second : Effect} (apart : Independent first second) :
    Independent second first :=
  ⟨apart.2, apart.1⟩

section Settled

variable {σ : Type} {backend : Backend σ}

/-- What an index holds when some effects have taken place since the initial state. -/
structure Settled (backend : Backend σ) (index : String) (initial : σ) (effects : List Effect)
    (state : σ) : Prop where
  written : ∀ documents, .write index documents ∈ effects → ∀ document ∈ documents,
    backend.lasting state index document.id = some document.source.lasting
  /-- The removed documents are gone, unless they were written. -/
  removed : ∀ id fields, (∀ effect ∈ effects, ¬ effect.Writes index id) →
    backend.stored initial index id = some fields →
      (∃ effect ∈ effects, effect.Removes index fields) → backend.stored state index id = none
  kept : ∀ id, (∀ effect ∈ effects, ¬ effect.Writes index id) →
    (∀ fields, backend.stored initial index id = some fields →
      ∀ effect ∈ effects, ¬ effect.Removes index fields) →
        backend.stored state index id = backend.stored initial index id

namespace Settled

variable {index : String} {initial : σ} {effect : Effect} {effects : List Effect}

theorem nil (backend : Backend σ) (index : String) (initial : σ) :
    Settled backend index initial [] initial where
  written := by simp
  removed := by simp
  kept := by simp

theorem of_documents_eq {before after : σ} (settled : Settled backend index initial effects before)
    (same : backend.documents after index = backend.documents before index) :
    Settled backend index initial effects after where
  written documents member document inside := by
    rw [Backend.lasting_eq_of_stored_eq (Backend.stored_eq_of_documents_eq same _)]
    exact settled.written documents member document inside
  removed id fields unwritten present removal := by
    rw [Backend.stored_eq_of_documents_eq same]
    exact settled.removed id fields unwritten present removal
  kept id unwritten spared := by
    rw [Backend.stored_eq_of_documents_eq same]
    exact settled.kept id unwritten spared

/-- Only which effects took place counts, not in which order. -/
theorem of_perm {state : σ} {reordered : List Effect}
    (settled : Settled backend index initial effects state) (order : effects.Perm reordered) :
    Settled backend index initial reordered state where
  written documents member := settled.written documents (order.mem_iff.mpr member)
  removed id fields unwritten present removal :=
    settled.removed id fields
      (fun effect member => unwritten effect (order.mem_iff.mp member)) present
      (removal.imp fun _ both => ⟨order.mem_iff.mpr both.1, both.2⟩)
  kept id unwritten spared :=
    settled.kept id (fun effect member => unwritten effect (order.mem_iff.mp member))
      fun fields present effect member => spared fields present effect (order.mem_iff.mp member)

theorem cons_of_index_ne {state : σ} (settled : Settled backend index initial effects state)
    (other : effect.index ≠ index) : Settled backend index initial (effect :: effects) state where
  written documents member document inside := by
    refine settled.written documents ((List.mem_cons.mp member).resolve_left ?_) document inside
    rintro rfl
    exact other rfl
  removed id fields unwritten present removal := by
    obtain ⟨remover, member, removes⟩ := removal
    refine settled.removed id fields
      (fun effect member => unwritten effect (List.mem_cons_of_mem _ member)) present
      ⟨remover, (List.mem_cons.mp member).resolve_left ?_, removes⟩
    rintro rfl
    exact other (index_eq_of_removes removes)
  kept id unwritten spared :=
    settled.kept id (fun effect member => unwritten effect (List.mem_cons_of_mem _ member))
      fun fields present effect member =>
        spared fields present effect (List.mem_cons_of_mem _ member)

/-- One more effect, if it is independent of those that took place before. -/
theorem cons {before after : σ} (settled : Settled backend index initial effects before)
    (applied : effect.Applied backend before after)
    (apart : ∀ other ∈ effects, Independent effect other) :
    Settled backend index initial (effect :: effects) after where
  written := by
    intro documents member document inside
    rcases List.mem_cons.mp member with own | earlier
    · exact applied.written index documents own.symm document inside
    · have present := settled.written documents earlier document inside
      obtain ⟨unwritten, spared⟩ := (apart _ earlier).2 index documents rfl document inside
      rw [← present]
      refine Backend.lasting_eq_of_stored_eq (applied.kept index document.id unwritten ?_)
      intro fields stored
      refine spared fields (Option.some.inj ?_)
      rw [← present, Backend.lasting, stored, Option.map_some]
  removed := by
    intro id fields unwritten present removal
    have untouched : ∀ other ∈ effects, ¬ other.Writes index id :=
      fun other member => unwritten other (List.mem_cons_of_mem effect member)
    -- Either an earlier effect has removed it and nobody writes it, or it is there to be removed.
    by_cases earlier : ∃ other ∈ effects, other.Removes index fields
    · have gone := settled.removed id fields untouched present earlier
      rw [← gone]
      exact applied.kept index id (unwritten effect List.mem_cons_self) (by simp [gone])
    · have still : backend.stored before index id = some fields := by
        rw [settled.kept id untouched ?_, present]
        intro other stored remover member
        obtain rfl : fields = other := Option.some.inj (present.symm.trans stored)
        exact fun removes => earlier ⟨remover, member, removes⟩
      obtain ⟨remover, member, removes⟩ := removal
      rcases List.mem_cons.mp member with rfl | member
      · exact applied.removed index id fields still removes
      · exact absurd ⟨remover, member, removes⟩ earlier
  kept := by
    intro id unwritten spared
    have held : backend.stored before index id = backend.stored initial index id :=
      settled.kept id
        (fun other member => unwritten other (List.mem_cons_of_mem effect member))
        fun fields present other member =>
          spared fields present other (List.mem_cons_of_mem effect member)
    rw [← held]
    refine applied.kept index id (unwritten effect List.mem_cons_self) fun fields stored => ?_
    exact spared fields (held ▸ stored) effect List.mem_cons_self

theorem stored_of_unwritten {state : σ} (settled : Settled backend index initial effects state)
    {id : String} (unwritten : ∀ effect ∈ effects, ¬ effect.Writes index id) {fields : Fields}
    (present : backend.stored state index id = some fields) :
    backend.stored initial index id = some fields ∧
      ∀ effect ∈ effects, ¬ effect.Removes index fields := by
  by_cases removal : ∃ earlier, backend.stored initial index id = some earlier ∧
      ∃ effect ∈ effects, effect.Removes index earlier
  · obtain ⟨earlier, before, removal⟩ := removal
    rw [settled.removed id earlier unwritten before removal] at present
    cases present
  · have spared : ∀ earlier, backend.stored initial index id = some earlier →
        ∀ effect ∈ effects, ¬ effect.Removes index earlier :=
      fun earlier before effect member removes =>
        removal ⟨earlier, before, effect, member, removes⟩
    have before := (settled.kept id unwritten spared).symm.trans present
    exact ⟨before, spared fields before⟩

/-- The same effects on the same documents lead to the same documents, up to the times of
ingestion. -/
theorem lasting_eq {first second : σ} (settled : Settled backend index initial effects first)
    (settled' : Settled backend index initial effects second) (id : String) :
    backend.lasting first index id = backend.lasting second index id := by
  by_cases writes : ∃ effect ∈ effects, effect.Writes index id
  · obtain ⟨effect, member, written⟩ := writes
    cases effect with
    | remove _ _ _ => exact written.elim
    | write name documents =>
        obtain ⟨rfl, document, inside, rfl⟩ := written
        rw [settled.written documents member document inside,
          settled'.written documents member document inside]
  · have unwritten : ∀ effect ∈ effects, ¬ effect.Writes index id :=
      fun effect member written => writes ⟨effect, member, written⟩
    refine Backend.lasting_eq_of_stored_eq ?_
    by_cases removal : ∃ fields, backend.stored initial index id = some fields ∧
        ∃ effect ∈ effects, effect.Removes index fields
    · obtain ⟨fields, present, removal⟩ := removal
      rw [settled.removed id fields unwritten present removal,
        settled'.removed id fields unwritten present removal]
    · have spared : ∀ fields, backend.stored initial index id = some fields →
          ∀ effect ∈ effects, ¬ effect.Removes index fields :=
        fun fields present effect member removes =>
          removal ⟨fields, present, effect, member, removes⟩
      rw [settled.kept id unwritten spared, settled'.kept id unwritten spared]

theorem written_or_kept (exact : backend.Exact) {state : σ}
    (settled : Settled backend index initial effects state) {document : Document}
    (member : document ∈ backend.documents state index) :
    (∃ documents, .write index documents ∈ effects ∧ ∃ twin ∈ documents, twin.id = document.id ∧
        twin.source.lasting = document.source.lasting) ∨
      document ∈ backend.documents initial index ∧
        ∀ effect ∈ effects, ¬ effect.Removes index document.source := by
  have present := (Backend.mem_documents_iff exact).mp member
  by_cases writes : ∃ effect ∈ effects, effect.Writes index document.id
  · obtain ⟨effect, took, written⟩ := writes
    cases effect with
    | remove _ _ _ => exact written.elim
    | write name documents =>
        obtain ⟨rfl, twin, inside, same⟩ := written
        have lasting := settled.written documents took twin inside
        rw [same, Backend.lasting, present, Option.map_some, Option.some.injEq] at lasting
        exact .inl ⟨documents, took, twin, inside, same, lasting.symm⟩
  · have unwritten : ∀ effect ∈ effects, ¬ effect.Writes index document.id :=
      fun effect member written => writes ⟨effect, member, written⟩
    obtain ⟨before, spared⟩ := settled.stored_of_unwritten unwritten present
    exact .inr ⟨(Backend.mem_documents_iff exact).mpr before, spared⟩

/-- What is true of the documents at first and of those that are written is true in the end, if it
has nothing to do with the time of ingestion. -/
theorem forall_document (exact : backend.Exact) {state : σ}
    (settled : Settled backend index initial effects state) {kind : Document → Prop}
    (timeless : ∀ {id fields others}, fields.lasting = Fields.lasting others → kind ⟨id, fields⟩ →
      kind ⟨id, others⟩)
    (begun : ∀ document ∈ backend.documents initial index, kind document)
    (brought : ∀ documents, .write index documents ∈ effects → ∀ document ∈ documents,
      kind document) : ∀ document ∈ backend.documents state index, kind document := by
  rintro ⟨id, fields⟩ member
  rcases settled.written_or_kept exact member with
    ⟨documents, took, ⟨_, source⟩, inside, rfl, lasting⟩ | ⟨before, _⟩
  · exact timeless lasting (brought documents took _ inside)
  · exact begun _ before

/-- Fields of a kind that has nothing to do with the time of ingestion are there in the end if they
were written, or if they were there at first and were not removed. -/
theorem exists_document_iff (exact : backend.Exact) {state : σ}
    (settled : Settled backend index initial effects state) {kind : Fields → Prop}
    (timeless : ∀ {fields others : Fields}, fields.lasting = others.lasting → kind fields →
      kind others)
    (faithful : ∀ document ∈ backend.documents initial index, kind document.source →
      ∀ effect ∈ effects, effect.Writes index document.id → effect.Brings index kind) :
    (∃ document ∈ backend.documents state index, kind document.source) ↔
      (∃ effect ∈ effects, effect.Brings index kind) ∨
        ∃ document ∈ backend.documents initial index, kind document.source ∧
          ∀ effect ∈ effects, ¬ effect.Removes index document.source := by
  have brought : (∃ effect ∈ effects, effect.Brings index kind) →
      ∃ document ∈ backend.documents state index, kind document.source := by
    rintro ⟨effect, member, brings⟩
    cases effect with
    | remove _ _ _ => exact brings.elim
    | write name documents =>
        obtain ⟨rfl, document, inside, holds⟩ := brings
        have lasting := settled.written documents member document inside
        obtain ⟨fields, present, same⟩ := Option.map_eq_some_iff.mp lasting
        exact ⟨⟨document.id, fields⟩, Backend.mem_documents_of_stored exact present,
          timeless same.symm holds⟩
  constructor
  · rintro ⟨document, member, holds⟩
    rcases settled.written_or_kept exact member with
      ⟨documents, took, twin, inside, _, lasting⟩ | ⟨before, spared⟩
    · exact .inl ⟨_, took, rfl, twin, inside, timeless lasting.symm holds⟩
    · exact .inr ⟨document, before, holds, spared⟩
  · rintro (writes | ⟨document, member, holds, spared⟩)
    · exact brought writes
    · have before := (Backend.mem_documents_iff exact).mp member
      by_cases writes : ∃ effect ∈ effects, effect.Writes index document.id
      · obtain ⟨effect, inside, written⟩ := writes
        exact brought ⟨effect, inside, faithful document member holds effect inside written⟩
      · refine ⟨document, (Backend.mem_documents_iff exact).mpr ?_, holds⟩
        rw [settled.kept document.id
          (fun effect inside written => writes ⟨effect, inside, written⟩) fun fields present => ?_,
          before]
        rw [before, Option.some.injEq] at present
        exact present ▸ spared

end Settled

end Settled

end Effect
end LearningIndex
