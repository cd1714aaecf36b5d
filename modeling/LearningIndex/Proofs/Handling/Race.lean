import LearningIndex.Proofs.Handling.Calls
import LearningIndex.Proofs.Program.Crowd

/-!
# Calls that race

Nothing is locked from the moment at which a call finds out what to write until it has written it.
Another call may write meanwhile, but only documents that the first one would have written itself.
So an entity is written in the end if some call would have written it at the beginning, whatever the
interleaving, and what is written of it is the same: all interleavings leave the same documents, up
to the times of ingestion.

This takes that no call passes over one entity because of a document under an id of another one.  To
write the other one is to remove that document, and the interleaving decides whether some call
notices that the first entity is missing.
-/

namespace LearningIndex

open Calendar (Instant)

variable {σ ι : Type}

/-- No document that is stored under an id of one of some entities lets a call pass over another one
of them. -/
def IndexCall.IsUnmisled (call : IndexCall) (backend : Backend σ)
    (indexer : LearningMaterialIndexer) (entities : List Entity) (state : σ) : Prop :=
  ∀ entity ∈ entities, entity.kind = call.kind → ∀ other ∈ call.entities,
    other.kind = call.kind → ∀ since ∈ call.condition?,
      ∀ document ∈ backend.documents state call.kind.home,
        (∃ own ∈ (entity.subject indexer backend.files).documents "", own.id = document.id) →
          document.get? call.kind.keyField = some other.key → document.source.IsRecent since →
            other.key = entity.key

/-- What handled messages leave misleads no call. -/
theorem Orderly.isUnmisled {backend : Backend σ} {state : σ} (orderly : Orderly backend state)
    (indexer : LearningMaterialIndexer) {entities : List Entity}
    (fits : ∀ entity ∈ entities, entity.Fits) (call : IndexCall) :
    call.IsUnmisled backend indexer entities state := by
  rintro entity inside kind other _ _ _ _ document stored ⟨own, written, same⟩ named _
  have sound := entity.isSound_subject indexer backend.files (fits entity inside)
  rw [kind] at sound
  have alike := call.kind.keyField_eq_of_id_eq (sound.belongs "" own written)
    (orderly _ document stored) same
  rw [sound.keyed "" own written, Entity.key_subject, named] at alike
  exact (Option.some.inj alike).symm

namespace Subject

theorem IsSound.exists_twin {subject : Subject} {index field : String}
    (sound : subject.IsSound index field) {time : String} (other : String) {document : Document}
    (own : document ∈ subject.documents time) :
    ∃ twin ∈ subject.documents other, twin.id = document.id := by
  have alike : (document.id, document.source.lasting) ∈ (subject.documents other).map
      fun document => (document.id, document.source.lasting) :=
    sound.timeless time other ▸ List.mem_map.mpr ⟨document, own, rfl⟩
  obtain ⟨twin, inside, same⟩ := List.mem_map.mp alike
  exact ⟨twin, inside, congrArg Prod.fst same⟩

/-- If only one subject has documents with an id, what is written under it is of this subject. -/
theorem latest_flatMap_of_mem {subjects : List Subject} {subject : Subject} {index field : String}
    (sound : subject.IsSound index field) (member : subject ∈ subjects) {time id : String}
    {fields : Fields} (own : latest (subject.documents "") id = some fields)
    (only : ∀ other ∈ subjects, ∀ document ∈ other.documents time, document.id = id →
      other = subject) :
    latest (subjects.flatMap (·.documents time)) id = some fields := by
  rw [← latest_congr (sound.timeless time "") id] at own
  induction subjects with
  | nil => exact absurd member List.not_mem_nil
  | cons first rest ih =>
      rw [List.flatMap_cons, latest_append]
      have later := fun other inside => only other (List.mem_cons_of_mem first inside)
      by_cases among : subject ∈ rest
      · rw [ih among later, Option.some_or]
      · obtain rfl := (List.mem_cons.mp member).resolve_right among
        have others : latest (rest.flatMap (·.documents time)) id = none := by
          refine latest_eq_none_iff.mpr fun document written same => ?_
          obtain ⟨other, inside, written⟩ := List.mem_flatMap.mp written
          exact among (later other inside document written same ▸ inside)
        rw [others, Option.none_or, own]

end Subject

/-- Calls that share a backend. -/
structure Race (σ ι : Type) where
  backend : Backend σ
  keepAlive : String
  uploadLimit : Nat
  /-- The entities of which each call is given some. -/
  entities : List Entity
  calls : ι → IndexCall
  begun : σ

namespace Race

def indexer (race : Race σ ι) : LearningMaterialIndexer :=
  .new true race.keepAlive race.uploadLimit

def subject (race : Race σ ι) (entity : Entity) : Subject :=
  entity.subject race.indexer race.backend.files

def program (race : Race σ ι) (caller : ι) : Task Bool :=
  (race.calls caller).task race.keepAlive race.uploadLimit

def crowd (race : Race σ ι) : Crowd services ι IndexingError Bool σ :=
  ⟨race.program, race.begun⟩

/-- The entities have different ids that fit, and the engine does all that it is asked for. -/
structure IsFair (race : Race σ ι) : Prop where
  exact : race.backend.Exact
  never : race.backend.NeverFails
  aggregates : race.backend.Aggregates
  /-- No two entities of a kind have the same id. -/
  distinct : (race.entities.map fun entity => (entity.kind, entity.key)).Nodup
  fits : ∀ entity ∈ race.entities, entity.Fits
  parts : ∀ caller, (race.calls caller).entities ⊆ race.entities
  /-- At the beginning no document under an id of one entity lets a call pass over another one. -/
  unmisled : ∀ caller,
    (race.calls caller).IsUnmisled race.backend race.indexer race.entities race.begun

/-- A document of an entity has an id. -/
def Claims (race : Race σ ι) (entity : Entity) (id : String) : Prop :=
  ∃ document ∈ (race.subject entity).documents "", document.id = id

/-- All documents of an entity are stored. -/
def Written (race : Race σ ι) (state : σ) (entity : Entity) : Prop :=
  ∀ id, race.Claims entity id → race.backend.lasting state entity.kind.home id =
    latest ((race.subject entity).documents "") id

/-- A call that were handled at the beginning would write an entity. -/
structure Wants (race : Race σ ι) (call : IndexCall) (entity : Entity) : Prop where
  uniform : call.IsUniform
  listed : entity ∈ call.entities
  due : ¬ call.PassesOver race.backend race.begun entity.key
  /-- The call passes over all whose documents cannot be built. -/
  readable : ∀ other ∈ call.entities, (race.subject other).fault ≠ none →
    call.PassesOver race.backend race.begun other.key

/-- Some call that were handled at the beginning would write an entity. -/
def Demanded (race : Race σ ι) (entity : Entity) : Prop :=
  ∃ caller, race.Wants (race.calls caller) entity

/-- How the calls move the state: documents are changed by writing all documents of a demanded
entity only, and what is written stays written. -/
structure Move (race : Race σ ι) (before after : σ) : Prop where
  /-- What is not stored as before belongs to a demanded entity that is written. -/
  kept : ∀ index id, race.backend.stored after index id = race.backend.stored before index id ∨
    ∃ entity, race.Demanded entity ∧ entity.kind.home = index ∧ race.Claims entity id ∧
      race.Written after entity
  written : ∀ entity, race.Demanded entity → race.Written before entity →
    race.Written after entity

/-- All that is demanded is written, and nothing else has changed. -/
structure Settled (race : Race σ ι) (state : σ) : Prop where
  moved : race.Move race.begun state
  written : ∀ entity, race.Demanded entity → race.Written state entity

section Moves

variable {race : Race σ ι} {before middle after : σ} {entity : Entity}

theorem Move.of_sameDocuments (same : race.backend.SameDocuments before after) :
    race.Move before after where
  kept index id := .inl (Backend.stored_eq_of_documents_eq (same index) id)
  written entity _ written id claims :=
    (Backend.lasting_eq_of_stored_eq
      (Backend.stored_eq_of_documents_eq (same entity.kind.home) id)).trans (written id claims)

theorem Move.trans (first : race.Move before middle) (second : race.Move middle after) :
    race.Move before after where
  kept index id := by
    rcases second.kept index id with same | changed
    · rcases first.kept index id with unchanged | ⟨entity, demanded, home, claims, written⟩
      · exact .inl (same.trans unchanged)
      · exact .inr ⟨entity, demanded, home, claims, second.written entity demanded written⟩
    · exact .inr changed
  written entity demanded written :=
    second.written entity demanded (first.written entity demanded written)

theorem tolerates_move (race : Race σ ι) : race.backend.Tolerates race.Move :=
  ⟨Move.of_sameDocuments, Move.trans⟩

theorem Wants.fault_eq_none {call : IndexCall} (wants : race.Wants call entity) :
    (race.subject entity).fault = none := by
  by_contra faulty
  exact wants.due (wants.readable entity wants.listed faulty)

theorem Demanded.fault_eq_none (demanded : race.Demanded entity) :
    (race.subject entity).fault = none := by
  obtain ⟨_, wants⟩ := demanded
  exact wants.fault_eq_none

theorem Settled.lasting_eq {first second : σ} (settled : race.Settled first)
    (settled' : race.Settled second) (index id : String) :
    race.backend.lasting first index id = race.backend.lasting second index id := by
  by_cases claimed : ∃ entity, race.Demanded entity ∧ entity.kind.home = index ∧
      race.Claims entity id
  · obtain ⟨entity, demanded, rfl, claims⟩ := claimed
    rw [settled.written entity demanded id claims, settled'.written entity demanded id claims]
  · have unchanged {after : σ} (moved : race.Move race.begun after) :
        race.backend.lasting after index id = race.backend.lasting race.begun index id := by
      refine Backend.lasting_eq_of_stored_eq ((moved.kept index id).resolve_right ?_)
      rintro ⟨entity, demanded, home, claims, _⟩
      exact claimed ⟨entity, demanded, home, claims⟩
    rw [unchanged settled.moved, unchanged settled'.moved]

end Moves

namespace IsFair

variable {race : Race σ ι} {entity other : Entity} {state : σ}

theorem mem_of_demanded (fair : race.IsFair) (demanded : race.Demanded entity) :
    entity ∈ race.entities := by
  obtain ⟨caller, wants⟩ := demanded
  exact fair.parts caller wants.listed

theorem sound (fair : race.IsFair) (inside : entity ∈ race.entities) :
    (race.subject entity).IsSound entity.kind.home entity.kind.keyField :=
  entity.isSound_subject race.indexer race.backend.files (fair.fits entity inside)

theorem eq_of_key_eq (fair : race.IsFair) (inside : entity ∈ race.entities)
    (inside' : other ∈ race.entities) (kind : entity.kind = other.kind)
    (key : entity.key = other.key) : entity = other :=
  List.inj_on_of_nodup_map fair.distinct inside inside' (Prod.ext kind key)

/-- Entities are told apart by the ids of their documents. -/
theorem eq_of_claims (fair : race.IsFair) (inside : entity ∈ race.entities)
    (inside' : other ∈ race.entities) (kind : entity.kind = other.kind) {id : String}
    (claims : race.Claims entity id) (claims' : race.Claims other id) : entity = other := by
  obtain ⟨document, own, rfl⟩ := claims
  obtain ⟨document', own', same⟩ := claims'
  have sound := fair.sound inside
  have sound' := fair.sound inside'
  rw [← kind] at sound'
  have alike := entity.kind.keyField_eq_of_id_eq (sound.belongs "" document own)
    (sound'.belongs "" document' own') same.symm
  rw [sound.keyed "" document own, sound'.keyed "" document' own'] at alike
  refine fair.eq_of_key_eq inside inside' kind ?_
  simpa only [subject, Entity.key_subject, Option.some.injEq] using alike

theorem claims_of_mem (fair : race.IsFair) (inside : entity ∈ race.entities) {time : String}
    {document : Document} (own : document ∈ (race.subject entity).documents time) :
    race.Claims entity document.id :=
  (fair.sound inside).exists_twin "" own

theorem named_of_written (fair : race.IsFair) (inside : entity ∈ race.entities)
    (written : race.Written state entity) {document : Document}
    (stored : document ∈ race.backend.documents state entity.kind.home)
    (claims : race.Claims entity document.id) :
    document.get? entity.kind.keyField = some entity.key := by
  have lasting := written document.id claims
  rw [Backend.lasting, (Backend.mem_documents_iff fair.exact).mp stored, Option.map_some] at lasting
  obtain ⟨earlier, own, later, listed, _, same, _⟩ := latest_eq_some_iff.mp lasting.symm
  have member : own ∈ (race.subject entity).documents "" := listed ▸ by simp
  have named := (fair.sound inside).keyed "" own member
  rw [subject, Entity.key_subject] at named
  exact (Fields.get?_eq_of_lasting_eq entity.kind.keyField_ne_timeField same).symm.trans named

section Passing

variable {call : IndexCall}

/-- A document that names an entity was there at the beginning, or the entity is written. -/
theorem mem_begun_or_written (fair : race.IsFair) (moved : race.Move race.begun state)
    (inside : entity ∈ race.entities) {document : Document}
    (stored : document ∈ race.backend.documents state entity.kind.home)
    (named : document.get? entity.kind.keyField = some entity.key) :
    document ∈ race.backend.documents race.begun entity.kind.home ∨
      race.Demanded entity ∧ race.Written state entity := by
  rcases moved.kept entity.kind.home document.id with
    same | ⟨other, demanded, home, claims, written⟩
  · left
    rw [Backend.mem_documents_iff fair.exact] at stored ⊢
    exact same.symm.trans stored
  · right
    have kind := EntityKind.home_injective home
    have among := fair.mem_of_demanded demanded
    have named' := fair.named_of_written among written (kind ▸ stored) claims
    rw [kind, named] at named'
    obtain rfl := fair.eq_of_key_eq inside among kind.symm (Option.some.inj named')
    exact ⟨demanded, written⟩

/-- What a call passes over it passed over at the beginning, or it is written. -/
theorem passesOver_begun_or_written (fair : race.IsFair) (moved : race.Move race.begun state)
    (inside : entity ∈ race.entities) (kind : entity.kind = call.kind)
    (passed : call.PassesOver race.backend state entity.key) :
    call.PassesOver race.backend race.begun entity.key ∨
      race.Demanded entity ∧ race.Written state entity := by
  obtain ⟨since, asked, document, stored, named, recent⟩ := passed
  rw [← kind] at stored named
  refine (fair.mem_begun_or_written moved inside stored named).imp_left fun earlier => ?_
  exact ⟨since, asked, document, kind ▸ earlier, kind ▸ named, recent⟩

/-- What a call passed over at the beginning only is demanded. -/
theorem demanded_of_unpassed (fair : race.IsFair) (moved : race.Move race.begun state) {caller : ι}
    (listed : entity ∈ (race.calls caller).entities)
    (kind : entity.kind = (race.calls caller).kind)
    (passed : (race.calls caller).PassesOver race.backend race.begun entity.key)
    (unpassed : ¬ (race.calls caller).PassesOver race.backend state entity.key) :
    race.Demanded entity := by
  obtain ⟨since, asked, document, stored, named, recent⟩ := passed
  rcases moved.kept _ document.id with same | ⟨other, demanded, home, claims, _⟩
  · refine absurd ⟨since, asked, document, ?_, named, recent⟩ unpassed
    rw [Backend.mem_documents_iff fair.exact] at stored ⊢
    exact same.trans stored
  · have kind' := EntityKind.home_injective home
    have among := fair.mem_of_demanded demanded
    have key := fair.unmisled caller other among kind' entity listed kind since asked document
      stored claims named recent
    obtain rfl := fair.eq_of_key_eq (fair.parts caller listed) among (kind.trans kind'.symm) key
    exact demanded

end Passing

section Calling

variable {caller : ι} {middle after : σ} {picked : List Entity}

/-- If the documents of something picked cannot be built, the call would write nothing. -/
theorem not_wants_of_fault (fair : race.IsFair) (moved : race.Move race.begun middle)
    (picks : (race.calls caller).Picks race.backend race.Move middle after picked)
    (inside : other ∈ picked) (faulty : (race.subject other).fault ≠ none) :
    ¬ race.Wants (race.calls caller) entity := by
  intro wants
  have listed := picks.within inside
  obtain ⟨moment, before, _, unpassed⟩ := picks.due other inside
  have demanded := fair.demanded_of_unpassed (moved.trans before) listed
    (wants.uniform other listed) (wants.readable other listed faulty) unpassed
  exact faulty demanded.fault_eq_none

theorem demanded_of_picked (fair : race.IsFair) (uniform : (race.calls caller).IsUniform)
    (moved : race.Move race.begun middle)
    (picks : (race.calls caller).Picks race.backend race.Move middle after picked)
    (clean : ∀ entity ∈ picked, (race.subject entity).fault = none) (inside : entity ∈ picked) :
    race.Demanded entity := by
  have listed := picks.within inside
  obtain ⟨moment, before, _, unpassed⟩ := picks.due entity inside
  by_cases passed : (race.calls caller).PassesOver race.backend race.begun entity.key
  · exact fair.demanded_of_unpassed (moved.trans before) listed (uniform entity listed) passed
      unpassed
  · refine ⟨caller, uniform, listed, passed, fun other among faulty => ?_⟩
    have unpicked : other ∉ picked := fun inside => faulty (clean other inside)
    obtain ⟨moment, before, _, passed⟩ := picks.passed other among unpicked
    refine (fair.passesOver_begun_or_written (moved.trans before) (fair.parts caller among)
      (uniform other among) passed).resolve_right ?_
    rintro ⟨demanded, _⟩
    exact faulty demanded.fault_eq_none

/-- What a call wants and does not pick has been written by another one. -/
theorem written_of_unpicked (fair : race.IsFair) (moved : race.Move race.begun middle)
    (picks : (race.calls caller).Picks race.backend race.Move middle after picked)
    (wants : race.Wants (race.calls caller) entity) (unpicked : entity ∉ picked) :
    race.Written after entity := by
  obtain ⟨moment, before, behind, passed⟩ := picks.passed entity wants.listed unpicked
  obtain ⟨demanded, written⟩ := (fair.passesOver_begun_or_written (moved.trans before)
    (fair.parts caller wants.listed) (wants.uniform entity wants.listed) passed).resolve_left
      wants.due
  exact behind.written entity demanded written

end Calling

section Writing

variable {kind : EntityKind} {picked : List Entity}

/-- Under an id of an entity a bulk request leaves its document if the entity is picked, and what
was there if it is not. -/
theorem lasting_bulk_of_claims (fair : race.IsFair) (inside : entity ∈ race.entities)
    (within : picked ⊆ race.entities) (uniform : ∀ entity ∈ picked, entity.kind = kind)
    (home : entity.kind = kind) {id : String} (claims : race.Claims entity id) (time : String)
    (state : σ) :
    (entity ∈ picked → race.backend.lasting (race.backend.serve (bulkRequest kind.home
        ((picked.map race.subject).flatMap (·.documents time))) state).2 kind.home id =
      latest ((race.subject entity).documents "") id) ∧
    (entity ∉ picked → race.backend.lasting (race.backend.serve (bulkRequest kind.home
        ((picked.map race.subject).flatMap (·.documents time))) state).2 kind.home id =
      race.backend.lasting state kind.home id) := by
  let documents := (picked.map race.subject).flatMap (·.documents time)
  obtain ⟨reply, answered, clean⟩ :=
    fair.never.bulk (documents.map (BulkOperation.index kind.home)) state
  have written := lasting_bulk fair.exact answered clean id
  -- A picked entity with a document of this id is the entity.
  have only {other : Entity} (among : other ∈ picked) {document : Document}
      (own : document ∈ (race.subject other).documents time) (same : document.id = id) :
      other = entity := by
    have claims' := fair.claims_of_mem (within among) own
    rw [same] at claims'
    exact fair.eq_of_claims (within among) inside ((uniform other among).trans home.symm) claims'
      claims
  constructor
  · intro among
    obtain ⟨own, member, named⟩ := claims
    cases last : latest ((race.subject entity).documents "") id with
    | none => exact absurd named (latest_eq_none_iff.mp last own member)
    | some fields =>
        have sent := Subject.latest_flatMap_of_mem (fair.sound inside)
          (List.mem_map_of_mem among) last (fun subject member document own same => by
            obtain ⟨other, among, rfl⟩ := List.mem_map.mp member
            rw [only among own same])
        exact written.trans (by rw [sent, Option.some_or])
  · intro outside
    have unsent : latest documents id = none := by
      refine latest_eq_none_iff.mpr fun document member same => ?_
      obtain ⟨subject, listed, own⟩ := List.mem_flatMap.mp member
      obtain ⟨other, among, rfl⟩ := List.mem_map.mp listed
      exact outside (only among own same ▸ among)
    exact written.trans (by rw [unsent, Option.none_or])

/-- To write demanded entities is a move, and they are written then. -/
theorem move_bulk (fair : race.IsFair) (demanded : ∀ entity ∈ picked, race.Demanded entity)
    (uniform : ∀ entity ∈ picked, entity.kind = kind) (time : String) (state : σ) :
    let after := (race.backend.serve (bulkRequest kind.home
      ((picked.map race.subject).flatMap (·.documents time))) state).2
    race.Move state after ∧ ∀ entity ∈ picked, race.Written after entity := by
  intro after
  have within : picked ⊆ race.entities := fun entity inside =>
    fair.mem_of_demanded (demanded entity inside)
  have written (entity : Entity) (inside : entity ∈ picked) : race.Written after entity := by
    intro id claims
    have home := uniform entity inside
    rw [home]
    exact (fair.lasting_bulk_of_claims (within inside) within uniform home claims time state).1
      inside
  refine ⟨⟨fun index id => ?_, fun entity wanted earlier id claims => ?_⟩, written⟩
  · by_cases home : kind.home = index
    · subst home
      by_cases sent : ∃ entity ∈ picked, ∃ document ∈ (race.subject entity).documents time,
          document.id = id
      · obtain ⟨entity, inside, document, own, rfl⟩ := sent
        exact .inr ⟨entity, demanded entity inside,
          congrArg EntityKind.home (uniform entity inside), fair.claims_of_mem (within inside) own,
          written entity inside⟩
      · refine .inl (stored_bulk_of_unsent fair.exact (fun document member same => sent ?_) state)
        obtain ⟨subject, listed, own⟩ := List.mem_flatMap.mp member
        obtain ⟨entity, inside, rfl⟩ := List.mem_map.mp listed
        exact ⟨entity, inside, document, own, same⟩
    · exact .inl (Backend.stored_eq_of_documents_eq
        (documents_bulk_of_ne fair.exact home _ state) id)
  · by_cases inside : entity ∈ picked
    · exact written entity inside id claims
    · rw [← earlier id claims]
      -- Nobody but the entity has documents under its ids, so the request leaves them as they were.
      by_cases home : entity.kind = kind
      · rw [home]
        exact (fair.lasting_bulk_of_claims (fair.mem_of_demanded wanted) within uniform home claims
          time state).2 inside
      · have apart : kind.home ≠ entity.kind.home := fun same =>
          home (EntityKind.home_injective same).symm
        exact Backend.lasting_eq_of_stored_eq (Backend.stored_eq_of_documents_eq
          (documents_bulk_of_ne fair.exact apart _ state) id)

end Writing

/-- Writing what is picked, among the others, leaves all that the call wants written. -/
theorem write_ensures (fair : race.IsFair) {caller : ι} (uniform : (race.calls caller).IsUniform)
    {begun middle : σ} {picked : List Entity} (moved : race.Move race.begun begun)
    (picks : (race.calls caller).Picks race.backend race.Move begun middle picked)
    (clean : ∀ entity ∈ picked, (race.subject entity).fault = none) (time : String) :
    Program.Ensures race.backend.serve race.Move race.Move
      (fun _ after => ∀ entity, race.Wants (race.calls caller) entity → race.Written after entity)
      (Catalog.write ⟨(race.calls caller).kind.home, race.keepAlive, true⟩
        ((picked.map race.subject).flatMap (·.documents time))) middle := by
  have demanded : ∀ entity ∈ picked, race.Demanded entity := fun entity inside =>
    fair.demanded_of_picked uniform moved picks clean inside
  have kinds : ∀ entity ∈ picked, entity.kind = (race.calls caller).kind := fun entity inside =>
    uniform entity (picks.within inside)
  have unpicked {after : σ} (more : race.Move middle after) {entity : Entity}
      (wants : race.Wants (race.calls caller) entity) (outside : entity ∉ picked) :
      race.Written after entity :=
    more.written entity ⟨caller, wants⟩ (fair.written_of_unpicked moved picks wants outside)
  rw [Catalog.write, Catalog.requireEngine_of_enabled rfl]
  simp only [Program.bind_eq_andThen, Program.done_ok_andThen]
  split
  · rename_i empty
    intro after more entity wants
    by_cases inside : entity ∈ picked
    · rintro id ⟨document, own, rfl⟩
      obtain ⟨twin, written, _⟩ :=
        (fair.sound (fair.mem_of_demanded (demanded entity inside))).exists_twin time own
      have sent : twin ∈ (picked.map race.subject).flatMap (·.documents time) :=
        List.mem_flatMap.mpr ⟨race.subject entity, List.mem_map_of_mem inside, written⟩
      rw [List.isEmpty_iff.mp empty] at sent
      exact absurd sent List.not_mem_nil
    · exact unpicked more wants inside
  · have bulk (later : σ) := fair.move_bulk demanded kinds time later
    refine Task.engine_andThen_ensures (fun later _ => (bulk later).1) ?_ ?_
    · intro later reply earlier _ after more entity wants
      by_cases inside : entity ∈ picked
      · exact more.written entity (demanded entity inside) ((bulk later).2 entity inside)
      · exact unpicked ((earlier.trans (bulk later).1).trans more) wants inside
    · intro later error _ failed
      obtain ⟨reply, answered, _⟩ := fair.never.bulk _ later
      cases failed.symm.trans answered

/-- A call among the others writes what it wants, unless another one has written it. -/
theorem program_ensures (fair : race.IsFair) (caller : ι) :
    Program.Ensures race.backend.serve race.Move race.Move
      (fun _ after => ∀ entity, race.Wants (race.calls caller) entity → race.Written after entity)
      (race.program caller) race.begun := by
  have tolerates := race.tolerates_move
  by_cases uniform : (race.calls caller).IsUniform
  · obtain ⟨prelude, same, ensured⟩ := IndexCall.gathersFirst fair.exact fair.aggregates
      race.keepAlive race.uploadLimit
      (fun entity inside => fair.fits entity (fair.parts caller inside)) uniform
    rw [program, same]
    refine Program.Ensures.andThen tolerates.refl
      ((ensured race.Move tolerates race.begun).mono ?_)
    rintro _ middle ⟨time, picked, picks, rfl⟩
    have moved := tolerates.refl race.begun
    cases built : Subject.gather time
        (picked.map (·.subject (.new true race.keepAlive race.uploadLimit) race.backend.files)) with
    | error error =>
        intro entity wants
        obtain ⟨subject, listed, faulty⟩ := Subject.exists_fault_of_gather built
        obtain ⟨other, inside, rfl⟩ := List.mem_map.mp listed
        exact absurd wants (fair.not_wants_of_fault moved picks inside faulty)
    | ok documents =>
        obtain ⟨clean, rfl⟩ := Subject.gather_eq_ok_iff.mp built
        exact fair.write_ensures uniform moved picks (List.forall_mem_map.mp clean) time
  · obtain ⟨error, failed⟩ :=
      IndexCall.exists_error race.keepAlive race.uploadLimit uniform
    rw [program, failed]
    exact fun after _ entity wants => absurd wants.uniform uniform

theorem settles (fair : race.IsFair) [DecidableEq ι] {after : Crowd services ι IndexingError Bool σ}
    (reaches : Crowd.Reaches race.backend.serve race.crowd after) (ended : after.HasEnded) :
    race.Settled after.state := by
  have tolerates := race.tolerates_move
  refine ⟨reaches.moves tolerates.refl tolerates.trans id fair.program_ensures, ?_⟩
  rintro entity ⟨caller, wants⟩
  obtain ⟨outcome, done⟩ := ended caller
  exact reaches.ends tolerates.refl tolerates.trans id fair.program_ensures done entity wants

end IsFair

end Race

end LearningIndex
