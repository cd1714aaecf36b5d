import LearningIndex.Proofs.Batch
import LearningIndex.Proofs.Effect
import LearningIndex.Proofs.Program.Interference
import Mathlib.Data.List.Forall2

/-!
# Asking an index and changing it

While others leave the documents of an index as they are, the skip set of some candidates holds only
ids that occur there, and a write or a deletion that succeeds has its full effect.  Other indexes
and the scroll contexts stay as they are.
-/

namespace LearningIndex

open Calendar (Instant)

/-- Keys that are read from no other value than the one that is sent for them. -/
class LawfulKey (κ : Type) [Key κ] : Prop where
  toJson_of_ofJson : ∀ {value : Json} {id : κ}, Key.ofJson value = .ok id → Key.toJson id = value

instance : LawfulKey Int where
  toJson_of_ofJson := by
    intro value id read
    cases value with
    | integer number =>
        simp only [Key.ofJson, Json.expectSigned] at read
        split_ifs at read
        rw [← Except.ok.inj read]
        rfl
    | _ => simp [Key.ofJson, Json.expectSigned] at read

theorem Key.ofJson_toJson_of_isSigned64 {id : Int} (fits : Json.isSigned64 id = true) :
    Key.ofJson (Key.toJson id) = .ok id := by
  simp [Key.ofJson, Key.toJson, Json.expectSigned, fits]

instance : LawfulKey String where
  toJson_of_ofJson := by
    intro value id read
    cases value with
    | string text =>
        rw [← Except.ok.inj read]
        rfl
    | _ => simp [Key.ofJson, Json.expectString] at read

variable {κ : Type} [Key κ]

theorem bucketKey_eq_ok_iff {bucket key : Json} (shown : bucket.get? "key" = some key) {id : κ} :
    bucketKey bucket = .ok id ↔ Key.ofJson key = .ok id := by
  simp only [bucketKey, shown]
  cases (Key.ofJson key : Except Json.Fault κ) <;> simp [Except.mapError]

theorem exists_mem_of_forall₂ {α β : Type} {relation : α → β → Prop} {items : List α}
    {results : List β} (corresponds : List.Forall₂ relation items results) {result : β}
    (member : result ∈ results) : ∃ item ∈ items, relation item result := by
  induction corresponds with
  | nil => simp at member
  | @cons item _ _ _ first _ ih =>
      rcases List.mem_cons.mp member with rfl | member
      · exact ⟨item, List.mem_cons_self, first⟩
      · obtain ⟨source, inside, same⟩ := ih member
        exact ⟨source, List.mem_cons_of_mem item inside, same⟩

/-- Items are read one by one, and the first that cannot be read is an error. -/
theorem mapM_eq_ok_iff {α β ε : Type} {read : α → Except ε β} {items : List α} {results : List β} :
    items.mapM read = .ok results ↔
      List.Forall₂ (fun item result => read item = .ok result) items results := by
  induction items generalizing results with
  | nil =>
      rw [List.mapM_nil, List.forall₂_nil_left_iff]
      exact ⟨fun same => (Except.ok.inj same).symm, fun same => congrArg Except.ok same.symm⟩
  | cons item rest ih =>
      rw [List.mapM_cons, List.forall₂_cons_left_iff]
      cases one : read item with
      | error error => simp [bind, Except.bind]
      | ok result =>
          cases others : rest.mapM read with
          | error error => simp [bind, Except.bind, ← ih, others]
          | ok more => simp [bind, Except.bind, pure, Except.pure, ← ih, others, eq_comm]

/-- The keys of an answer are the keys of its buckets. -/
theorem aggregationKeys_eq_ok_iff {answer : Json} {aggregation : String} {ids : List κ} :
    aggregationKeys answer aggregation = .ok ids ↔
      ∃ buckets, bucketsOf? answer aggregation = some buckets ∧
        List.Forall₂ (fun bucket id => bucketKey bucket = .ok id) buckets ids := by
  unfold aggregationKeys
  cases bucketsOf? answer aggregation <;> simp [mapM_eq_ok_iff]

theorem aggregationKeys_eq_ok_iff_of_reports {answer : Json} {aggregation : String}
    {keys : List Json} (reported : Reports answer aggregation keys) {ids : List κ} :
    aggregationKeys answer aggregation = .ok ids ↔
      List.Forall₂ (fun key id => Key.ofJson key = .ok id) keys ids := by
  obtain ⟨buckets, found, shown⟩ := reported
  simp only [aggregationKeys_eq_ok_iff, found, Option.some.injEq, exists_eq_left']
  clear found
  induction shown generalizing ids with
  | nil => simp
  | cons first _ ih =>
      simp only [List.forall₂_cons_left_iff, bucketKey_eq_ok_iff first, ih]

theorem mem_of_aggregationKeys {answer : Json} {aggregation : String} {keys : List Json}
    (reported : Reports answer aggregation keys) {ids : List κ}
    (read : aggregationKeys answer aggregation = .ok ids) :
    ∀ id ∈ ids, ∃ key ∈ keys, Key.ofJson key = .ok id :=
  fun _ => exists_mem_of_forall₂ ((aggregationKeys_eq_ok_iff_of_reports reported).mp read)

/-- An answer whose keys can all be read is read. -/
theorem aggregationKeys_isOk {answer : Json} {aggregation : String} {keys : List Json}
    (reported : Reports answer aggregation keys)
    (legible : ∀ key ∈ keys, ∃ id : κ, Key.ofJson key = .ok id) :
    ∃ ids : List κ, aggregationKeys answer aggregation = .ok ids := by
  simp only [aggregationKeys_eq_ok_iff_of_reports reported]
  clear reported
  induction keys with
  | nil => exact ⟨[], .nil⟩
  | cons key rest ih =>
      obtain ⟨id, one⟩ := legible key List.mem_cons_self
      obtain ⟨ids, others⟩ := ih fun other member => legible other (List.mem_cons_of_mem key member)
      exact ⟨id :: ids, .cons one others⟩

namespace Catalog

variable {σ : Type} {backend : Backend σ}

theorem requireEngine_of_enabled {catalog : Catalog} (enabled : catalog.enabled = true) :
    catalog.requireEngine = .done (.ok ()) := by
  simp [requireEngine, enabled]

/-- The relation between states that leaves every index but one calm. -/
def Outside (backend : Backend σ) (index : String) : σ → σ → Prop :=
  backend.Steady (· ≠ index)

/-- An id that occurs in a field of a document, which is recent enough if that matters. -/
def Occurs (backend : Backend σ) (state : σ) (index field : String)
    (since : Option (String × Instant)) (value : Json) : Prop :=
  ∃ document ∈ backend.documents state index, document.get? field = some value ∧
    document.source.IsRecent since

theorem occurs_congr {before after : σ} {index field : String}
    {since : Option (String × Instant)} {value : Json}
    (same : backend.documents after index = backend.documents before index) :
    Occurs backend after index field since value ↔
      Occurs backend before index field since value := by
  rw [Occurs, Occurs, same]

theorem foundIn_ensures [LawfulKey κ] (exact : backend.Exact) (catalog : Catalog)
    (field : String) (since : Option (String × Instant)) (portions : List (List κ)) (state : σ) :
    Program.Ensures backend.serve backend.SameDocuments (Outside backend catalog.index)
      (fun outcome after => backend.SameDocuments state after ∧
        (∀ ids, outcome = .ok ids → ∀ id ∈ ids,
          Occurs backend state catalog.index field since (Key.toJson id)) ∧
        (backend.NeverFails →
          (∀ portion ∈ portions, ∀ id ∈ portion, Key.ofJson (Key.toJson id) = .ok id) →
            ∃ ids, outcome = .ok ids))
      (catalog.foundIn field since portions) state := by
  induction portions generalizing state with
  | nil =>
      intro after same
      refine ⟨same, ?_, fun _ _ => ⟨[], rfl⟩⟩
      intro ids empty
      obtain rfl := Except.ok.inj empty
      simp
  | cons portion rest ih =>
      let search : Service.Request := .engine (.search
        ⟨catalog.index, .indexed field (portion.map Key.toJson) since, none⟩)
      have harmless : ∀ index, ¬ search.Touches index := fun _ => id
      refine Task.engine_andThen_ensures ?_ ?_ ?_
      · intro later _
        exact exact.steady search (fun index _ => harmless index)
          (by simp [search, Service.Request.Scrolls]) later
      · intro later answer same answered
        obtain ⟨keys, reported, counted⟩ := exact.found catalog.index _ field _ later answer
          (Aggregation.ofBody?_indexed field (portion.map Key.toJson) since) answered
        have occurring := fun key member =>
          Aggregation.counts_ofCandidates_iff.mp (counted key member)
        have asked := same.trans (exact.sameDocuments search harmless later)
        cases read : (aggregationKeys answer field : Except EngineError (List κ)) with
        | error error =>
            intro after moved
            refine ⟨asked.trans moved, by simp, fun _ legible => ?_⟩
            -- The engine reports candidates only, and these can be read back.
            have readable : ∀ key ∈ keys, ∃ id : κ, Key.ofJson key = .ok id := by
              intro key member
              obtain ⟨id, inside, rfl⟩ := List.mem_map.mp (occurring key member).1
              exact ⟨id, legible portion List.mem_cons_self id inside⟩
            obtain ⟨ids, success⟩ := aggregationKeys_isOk reported readable
            simp [success] at read
        | ok ids =>
            change Program.Ensures _ _ _ _ ((catalog.foundIn field since rest).andThen fun others =>
              .done (.ok (ids ++ others))) _
            refine Program.Ensures.andThen backend.sameDocuments_refl ((ih _).mono ?_)
            rintro (error | others) after ⟨moved, sound, complete⟩
            · refine ⟨asked.trans moved, by simp, fun never legible => ?_⟩
              exact complete never fun portion member =>
                legible portion (List.mem_cons_of_mem _ member)
            · intro final settled
              refine ⟨(asked.trans moved).trans settled, ?_, fun _ _ => ⟨_, rfl⟩⟩
              intro all listed id member
              rw [← Except.ok.inj listed] at member
              rcases List.mem_append.mp member with first | second
              · obtain ⟨key, inside, readKey⟩ := mem_of_aggregationKeys reported read id first
                obtain ⟨_, document, present, valued, recent⟩ := occurring key inside
                rw [same catalog.index] at present
                exact ⟨document, present, LawfulKey.toJson_of_ofJson readKey ▸ valued, recent⟩
              · obtain ⟨document, present, found⟩ := sound others rfl id second
                rw [asked catalog.index] at present
                exact ⟨document, present, found⟩
      · intro later error same failed after moved
        refine ⟨(same.trans (exact.sameDocuments search harmless later)).trans moved, by simp,
          fun never _ => ?_⟩
        obtain ⟨_, answers⟩ := never.search
          ⟨catalog.index, .indexed field (portion.map Key.toJson) since, none⟩ later
        simp [answers] at failed

/-- The skip set of some candidates holds ids that occur in the index. -/
theorem skipSet_ensures [DecidableEq κ] [LawfulKey κ] (exact : backend.Exact) {catalog : Catalog}
    (enabled : catalog.enabled = true) (field : String) (candidates : List κ)
    (since : Option (String × Instant)) (state : σ) :
    Program.Ensures backend.serve backend.SameDocuments (Outside backend catalog.index)
      (fun outcome after => backend.SameDocuments state after ∧
        (∀ skip, outcome = .ok skip → ∀ id, skip.contains id = true →
          Occurs backend state catalog.index field since (Key.toJson id)) ∧
        (backend.NeverFails → (∀ id ∈ candidates, Key.ofJson (Key.toJson id) = .ok id) →
          ∃ skip, outcome = .ok skip))
      (catalog.skipSet field candidates since) state := by
  rw [skipSet, requireEngine_of_enabled enabled]
  change Program.Ensures _ _ _ _ ((catalog.foundIn field since
    (batches Query.answerLimit candidates)).andThen fun found =>
      .done (.ok (SkipSet.ofCandidates candidates found))) _
  refine Program.Ensures.andThen backend.sameDocuments_refl
    ((foundIn_ensures exact catalog field since _ state).mono ?_)
  rintro (error | found) after ⟨same, sound, complete⟩
  · refine ⟨same, by simp, fun never legible => ?_⟩
    obtain ⟨ids, success⟩ := complete never fun portion member id inside =>
      legible id (mem_of_mem_batches member inside)
    cases success
  · intro final moved
    refine ⟨same.trans moved, ?_, fun _ _ => ⟨_, rfl⟩⟩
    intro skip made id skipped
    rw [← Except.ok.inj made] at skipped
    have member : id ∈ found := by
      simp only [SkipSet.contains, SkipSet.ofCandidates, List.contains_eq_mem,
        List.mem_eraseDups, decide_eq_true_eq] at skipped
      exact List.mem_of_mem_filter skipped
    exact sound found rfl id member

/-- How a change ends: success means that it took place, if it makes sense at all, and an engine
that never fails lets it succeed. -/
structure ChangeEnds (backend : Backend σ) (sensible : Prop) (effect : Effect) (state : σ)
    (outcome : Except IndexingError Bool) (after : σ) : Prop where
  applied : sensible → outcome = .ok true → effect.Applied backend state after
  succeeds : backend.NeverFails → outcome = .ok true

theorem write_ensures (exact : backend.Exact) {catalog : Catalog}
    (enabled : catalog.enabled = true) (documents : List Document) (state : σ) :
    Program.Ensures backend.serve backend.SameDocuments (Outside backend catalog.index)
      (ChangeEnds backend (documents.map (·.id)).Nodup (.write catalog.index documents) state)
      (catalog.write documents) state := by
  rw [write, requireEngine_of_enabled enabled]
  simp only [Program.bind_eq_andThen, Program.done_ok_andThen]
  split
  · rename_i empty
    obtain rfl := List.isEmpty_iff.mp empty
    intro after same
    exact ⟨fun _ _ => (Effect.Applied.write_nil backend catalog.index state).of_sameDocuments
      (backend.sameDocuments_refl state) same, fun _ => rfl⟩
  · let bulk : Service.Request := .engine (.bulk (catalog.operations documents))
    have confined : ∀ index, index ≠ catalog.index → ¬ bulk.Touches index := by
      rintro index other ⟨operation, member, rfl⟩
      obtain ⟨document, _, rfl⟩ := List.mem_map.mp member
      exact other rfl
    refine Task.engine_andThen_ensures ?_ ?_ ?_
    · exact fun later _ =>
        exact.steady bulk confined (by simp [bulk, Service.Request.Scrolls]) later
    · intro later reply same answered after moved
      have applies (distinct : (documents.map (·.id)).Nodup) (clean : reply.errors = false) :=
        (Effect.applied_bulk exact distinct answered clean).of_sameDocuments same moved
      refine ⟨fun distinct success => applies distinct (by simpa using success), fun never => ?_⟩
      obtain ⟨other, answers, clean⟩ := never.bulk (catalog.operations documents) later
      rw [answers] at answered
      obtain rfl := Except.ok.inj answered
      simp [clean]
    · intro later error same failed after moved
      refine ⟨by simp, fun never => ?_⟩
      obtain ⟨other, answers, _⟩ := never.bulk (catalog.operations documents) later
      rw [answers] at failed
      cases failed

theorem deleteWhere_ensures (exact : backend.Exact) {catalog : Catalog}
    (enabled : catalog.enabled = true) (field : String) (value : Json) (state : σ) :
    Program.Ensures backend.serve backend.SameDocuments (Outside backend catalog.index)
      (ChangeEnds backend True (.remove catalog.index field value) state)
      (catalog.deleteWhere field value) state := by
  rw [deleteWhere, requireEngine_of_enabled enabled]
  simp only [Program.bind_eq_andThen, Program.done_ok_andThen]
  let deletion : Service.Request := .engine (.deleteByQuery catalog.index (.term field value))
  have confined : ∀ index, index ≠ catalog.index → ¬ deletion.Touches index :=
    fun index other same => other same.symm
  refine Task.engine_andThen_ensures ?_ ?_ ?_
  · exact fun later _ =>
      exact.steady deletion confined (by simp [deletion, Service.Request.Scrolls]) later
  · intro later reply same answered after moved
    have applies (clean : reply.isClean = true) :=
      (Effect.applied_deleteByQuery exact answered clean).of_sameDocuments same moved
    refine ⟨fun _ success => applies (by simpa using success), fun never => ?_⟩
    obtain ⟨other, answers, clean⟩ := never.deletion catalog.index (.term field value) later
    rw [answers] at answered
    obtain rfl := Except.ok.inj answered
    simp [clean]
  · intro later error same failed after moved
    refine ⟨by simp, fun never => ?_⟩
    obtain ⟨other, answers, _⟩ := never.deletion catalog.index (.term field value) later
    rw [answers] at failed
    cases failed

end Catalog
end LearningIndex
