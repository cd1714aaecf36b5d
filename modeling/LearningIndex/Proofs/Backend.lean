import LearningIndex.Indexing.Catalog
import LearningIndex.Indexing.Curriculum
import LearningIndex.Proofs.Document.Fields
import LearningIndex.Proofs.Engine.Bodies

/-!
# Backends

A backend answers the requests for services and keeps a state, of which the documents of each index
and the unread hits of each scroll context can be seen.  An exact backend does what it is asked
where it reports success, and nothing but a part of it where it does not.  Nothing is said of the
relevance of matches, of refresh intervals or of how long a request takes.
-/

namespace LearningIndex

/-- Whether a request may change the documents of an index. -/
def Service.Request.Touches (index : String) : Service.Request → Prop
  | .engine (.bulk operations) => ∃ operation ∈ operations, operation.action.index = index
  | .engine (.deleteByQuery name _) => name = index
  | .engine (.createIndex name _) => name = index
  | .engine (.deleteIndex name) => name = index
  | _ => False

/-- Whether a request opens, reads or releases a scroll context. -/
def Service.Request.Scrolls : Service.Request → Prop
  | .engine (.search request) => request.scroll ≠ none
  | .engine (.scroll _ _) => True
  | .engine (.clearScroll _) => True
  | _ => False

/-- A scroll context that is open. -/
structure Scroll where
  hits : List Json
  limit : Nat

namespace Scroll

/-- The hits of the next answer. -/
def page (scroll : Scroll) : List Json :=
  scroll.hits.take scroll.limit

/-- What is left after the next answer. -/
def rest (scroll : Scroll) : Scroll :=
  ⟨scroll.hits.drop scroll.limit, scroll.limit⟩

end Scroll

/-- Services that keep a state. -/
structure Backend (σ : Type) where
  serve : (request : Service.Request) → σ → Service.Reply request × σ
  /-- The documents of an index in the order in which they are listed. -/
  documents : σ → String → List Document
  remaining : σ → String → Option Scroll
  files : String → Except IndexingError (Option ByteString)

/-- A hit that shows a field of a document. -/
def ShowsField (field : String) (document : Document) (hit : Json) : Prop :=
  ∃ source, hit.get? "_source" = some source ∧ source.get? field = document.get? field

/-- An answer whose aggregation has buckets with the given keys. -/
def Reports (answer : Json) (aggregation : String) (keys : List Json) : Prop :=
  ∃ buckets, bucketsOf? answer aggregation = some buckets ∧
    List.Forall₂ (fun bucket key => bucket.get? "key" = some key) buckets keys

namespace Backend

variable {σ : Type}

/-- The fields of the document with an id. -/
def stored (backend : Backend σ) (state : σ) (index id : String) : Option Fields :=
  ((backend.documents state index).find? fun document => document.id = id).map (·.source)

/-- The fields of the document with an id, without the time of ingestion. -/
def lasting (backend : Backend σ) (state : σ) (index id : String) : Option Fields :=
  (backend.stored state index id).map Fields.lasting

/-- The effects of requests on the documents, and what their answers say about them. -/
structure Exact (backend : Backend σ) : Prop where
  distinct : ∀ state index, ((backend.documents state index).map (·.id)).Nodup
  file : ∀ state path, (backend.serve (.file path) state).1 = backend.files path
  kept : ∀ request state index, ¬ request.Touches index →
    backend.documents (backend.serve request state).2 index = backend.documents state index
  /-- Scroll contexts show the documents as they were when the context was opened. -/
  opened : ∀ request state, ¬ request.Scrolls →
    backend.remaining (backend.serve request state).2 = backend.remaining state
  /-- A bulk request replaces no document but by one that it carries. -/
  replaced : ∀ operations state index id,
    let after := (backend.serve (.engine (.bulk operations)) state).2
    backend.stored after index id = backend.stored state index id ∨
      ∃ operation ∈ operations, operation.action = ⟨index, id⟩ ∧
        backend.lasting after index id = some operation.document.lasting
  /-- A bulk request without errors writes each of its documents, of those with the same id the last
  one; the engine may set the time of ingestion. -/
  written : ∀ operations state reply,
    (backend.serve (.engine (.bulk operations)) state).1 = .ok reply → reply.errors = false →
      ∀ earlier operation later, operations = earlier ++ operation :: later →
        (∀ other ∈ later, other.action ≠ operation.action) →
          backend.lasting (backend.serve (.engine (.bulk operations)) state).2
            operation.action.index operation.action.id = some operation.document.lasting
  /-- A deletion removes no document but one that its body selects. -/
  spared : ∀ index query selection state id, Selection.ofBody? query.body = some selection →
    let after := (backend.serve (.engine (.deleteByQuery index query)) state).2
    backend.stored after index id = backend.stored state index id ∨
      backend.stored after index id = none ∧
        ∃ fields, backend.stored state index id = some fields ∧ selection.Selects fields
  /-- A deletion without failures removes every document that its body selects. -/
  removed : ∀ index query selection state reply, Selection.ofBody? query.body = some selection →
    (backend.serve (.engine (.deleteByQuery index query)) state).1 = .ok reply →
      reply.isClean = true → ∀ id fields, backend.stored state index id = some fields →
        selection.Selects fields →
          backend.stored (backend.serve (.engine (.deleteByQuery index query)) state).2 index id =
            none
  /-- The values that a search reports are among those that its body asks to be counted. -/
  found : ∀ index query name aggregation state answer,
    Aggregation.ofBody? query.body name = some aggregation →
      (backend.serve (.engine (.search ⟨index, query, none⟩)) state).1 = .ok answer →
        ∃ keys, Reports answer name keys ∧
          ∀ key ∈ keys, aggregation.Counts (backend.documents state index) key
  /-- A search for a listing opens a scroll context that shows each document once, and answers with
  its first page. -/
  listed : ∀ index query keepAlive listing state answer,
    Listing.ofBody? query.body = some listing →
      (backend.serve (.engine (.search ⟨index, query, some keepAlive⟩)) state).1 = .ok answer →
        ∃ hits scrollId, List.Forall₂ (ShowsField listing.field) (backend.documents state index)
            hits ∧
          ScrollPage.ofAnswer answer = ⟨some scrollId, (Scroll.mk hits listing.limit).page⟩ ∧
          backend.remaining
              (backend.serve (.engine (.search ⟨index, query, some keepAlive⟩)) state).2
              scrollId =
            some (Scroll.mk hits listing.limit).rest
  /-- A scroll context answers with its next page, and may change its id. -/
  continued : ∀ scrollId keepAlive state scroll answer,
    backend.remaining state scrollId = some scroll →
      (backend.serve (.engine (.scroll scrollId keepAlive)) state).1 = .ok answer →
        (ScrollPage.ofAnswer answer).hits = scroll.page ∧
          backend.remaining (backend.serve (.engine (.scroll scrollId keepAlive)) state).2
              ((ScrollPage.ofAnswer answer).scrollId.getD scrollId) = some scroll.rest

/-- The engine refuses nothing that indexing asks of it. -/
structure NeverFails (backend : Backend σ) : Prop where
  search : ∀ request state, ∃ answer,
    (backend.serve (.engine (.search request)) state).1 = .ok answer
  scroll : ∀ scrollId keepAlive state scroll, backend.remaining state scrollId = some scroll →
    ∃ answer, (backend.serve (.engine (.scroll scrollId keepAlive)) state).1 = .ok answer
  bulk : ∀ operations state, ∃ reply,
    (backend.serve (.engine (.bulk operations)) state).1 = .ok reply ∧ reply.errors = false
  deletion : ∀ index query state, ∃ reply,
    (backend.serve (.engine (.deleteByQuery index query)) state).1 = .ok reply ∧
      reply.isClean = true

/-- The documents are the same in two states. -/
def SameDocuments (backend : Backend σ) (before after : σ) : Prop :=
  ∀ index, backend.documents after index = backend.documents before index

/-- The scroll contexts are the same in two states, and so are the documents of the calm indexes. -/
structure Steady (backend : Backend σ) (calm : String → Prop) (before after : σ) : Prop where
  contexts : backend.remaining after = backend.remaining before
  documents : ∀ index, calm index → backend.documents after index = backend.documents before index

theorem sameDocuments_refl (backend : Backend σ) (state : σ) :
    backend.SameDocuments state state :=
  fun _ => rfl

theorem SameDocuments.trans {backend : Backend σ} {before middle after : σ}
    (first : backend.SameDocuments before middle) (second : backend.SameDocuments middle after) :
    backend.SameDocuments before after :=
  fun index => (second index).trans (first index)

/-- A relation by which the states of a backend may move: moves make up moves, and whatever leaves
the documents as they are is one. -/
structure Tolerates (backend : Backend σ) (move : σ → σ → Prop) : Prop where
  calm : ∀ {before after : σ}, backend.SameDocuments before after → move before after
  trans : ∀ {before middle after : σ}, move before middle → move middle after → move before after

theorem Tolerates.refl {backend : Backend σ} {move : σ → σ → Prop}
    (tolerates : backend.Tolerates move) (state : σ) : move state state :=
  tolerates.calm (backend.sameDocuments_refl state)

theorem tolerates_sameDocuments (backend : Backend σ) :
    backend.Tolerates backend.SameDocuments :=
  ⟨id, SameDocuments.trans⟩

theorem steady_refl (backend : Backend σ) (calm : String → Prop) (state : σ) :
    backend.Steady calm state state :=
  ⟨rfl, fun _ _ => rfl⟩

theorem Steady.trans {backend : Backend σ} {calm : String → Prop} {before middle after : σ}
    (first : backend.Steady calm before middle) (second : backend.Steady calm middle after) :
    backend.Steady calm before after where
  contexts := second.contexts.trans first.contexts
  documents index inside := (second.documents index inside).trans (first.documents index inside)

theorem Exact.sameDocuments {backend : Backend σ} (exact : backend.Exact)
    (request : Service.Request) (harmless : ∀ index, ¬ request.Touches index) (state : σ) :
    backend.SameDocuments state (backend.serve request state).2 :=
  fun index => exact.kept request state index (harmless index)

/-- A request that touches no calm index and uses no scroll context is steady. -/
theorem Exact.steady {backend : Backend σ} (exact : backend.Exact) (request : Service.Request)
    {calm : String → Prop} (harmless : ∀ index, calm index → ¬ request.Touches index)
    (unscrolled : ¬ request.Scrolls) (state : σ) :
    backend.Steady calm state (backend.serve request state).2 where
  contexts := exact.opened request state unscrolled
  documents index inside := exact.kept request state index (harmless index inside)

/-- A deletion by a value removes no document but one with the value in the field. -/
theorem Exact.spared_term {backend : Backend σ} (exact : backend.Exact) (index field : String)
    (value : Json) (state : σ) (id : String) :
    let after := (backend.serve (.engine (.deleteByQuery index (.term field value))) state).2
    backend.stored after index id = backend.stored state index id ∨
      backend.stored after index id = none ∧
        ∃ fields, backend.stored state index id = some fields ∧ fields.get? field = some value :=
  exact.spared index _ _ state id (Selection.ofBody?_term field value)

theorem Exact.removed_term {backend : Backend σ} (exact : backend.Exact) {index field : String}
    {value : Json} {state : σ} {reply : DeleteReply}
    (answered : (backend.serve
      (.engine (.deleteByQuery index (.term field value))) state).1 = .ok reply)
    (clean : reply.isClean = true) {id : String} {fields : Fields}
    (present : backend.stored state index id = some fields)
    (shown : fields.get? field = some value) :
    backend.stored (backend.serve (.engine (.deleteByQuery index (.term field value))) state).2
      index id = none :=
  exact.removed index _ _ state reply (Selection.ofBody?_term field value) answered clean id fields
    present shown

theorem lasting_eq_of_stored_eq {backend : Backend σ} {first second : σ} {index id : String}
    (same : backend.stored first index id = backend.stored second index id) :
    backend.lasting first index id = backend.lasting second index id :=
  congrArg (Option.map Fields.lasting) same

theorem stored_eq_of_documents_eq {backend : Backend σ} {first second : σ} {index : String}
    (same : backend.documents first index = backend.documents second index) (id : String) :
    backend.stored first index id = backend.stored second index id := by
  rw [stored, stored, same]

theorem mem_documents_iff {backend : Backend σ} (exact : backend.Exact) {state : σ}
    {index : String} {document : Document} :
    document ∈ backend.documents state index ↔
      backend.stored state index document.id = some document.source := by
  have distinct := exact.distinct state index
  rw [stored, Option.map_eq_some_iff]
  constructor
  · intro member
    refine ⟨document, ?_, rfl⟩
    generalize backend.documents state index = documents at distinct member
    induction documents with
    | nil => simp at member
    | cons first rest ih =>
        obtain ⟨absent, later⟩ := List.nodup_cons.mp distinct
        rcases List.mem_cons.mp member with rfl | member
        · simp
        · have apart : first.id ≠ document.id := by
            intro same
            exact absent (List.mem_map.mpr ⟨document, member, same.symm⟩)
          rw [List.find?_cons_of_neg (by simpa using apart)]
          exact ih later member
  · rintro ⟨other, found, same⟩
    have sameId : other.id = document.id := by simpa using List.find?_some found
    have equal : other = document := by
      cases other
      cases document
      simp_all
    exact equal ▸ List.mem_of_find?_eq_some found

theorem mem_documents_of_stored {backend : Backend σ} (exact : backend.Exact) {state : σ}
    {index id : String} {fields : Fields} (present : backend.stored state index id = some fields) :
    ⟨id, fields⟩ ∈ backend.documents state index :=
  (mem_documents_iff exact).mpr present

end Backend
end LearningIndex
