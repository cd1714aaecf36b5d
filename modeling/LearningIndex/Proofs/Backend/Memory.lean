import LearningIndex.Proofs.Backend
import Mathlib.Data.List.Dedup
import Mathlib.Data.List.Forall2

/-!
# A backend in memory

Indexes that are kept in memory, with scroll contexts and an ingest pipeline that notes the time in
the documents of the curriculum index.  Queries are answered for what their bodies ask.  The backend
is exact and never fails, so that what is assumed of backends elsewhere holds of something.
-/

namespace LearningIndex

open Calendar (Instant)

/-- Indexes in memory, and a clock that stands still. -/
structure Memory where
  shelf : String → List Document
  contexts : String → Option Scroll
  /-- The number of scroll contexts that were opened. -/
  opened : Nat
  now : Instant
  distinct : ∀ index, ((shelf index).map (·.id)).Nodup

/-- The documents with one more, in the place of an earlier one with its id. -/
def Document.put (document : Document) (documents : List Document) : List Document :=
  documents.filter (·.id ≠ document.id) ++ [document]

theorem Document.nodup_put (document : Document) {documents : List Document}
    (distinct : (documents.map (·.id)).Nodup) : ((document.put documents).map (·.id)).Nodup := by
  rw [put, List.map_append, List.nodup_append]
  refine ⟨distinct.sublist (List.filter_sublist.map _), by simp, ?_⟩
  rintro _ kept _ own rfl
  obtain ⟨other, member, same⟩ := List.mem_map.mp kept
  rw [List.map_singleton, List.mem_singleton] at own
  exact of_decide_eq_true (List.mem_filter.mp member).2 (same.trans own)

theorem Document.find?_put (document : Document) (documents : List Document) (id : String) :
    ((document.put documents).find? fun other => other.id = id) =
      if document.id = id then some document
      else documents.find? fun other => other.id = id := by
  rw [put, List.find?_append, List.find?_filter]
  simp only [decide_eq_true_eq]
  split_ifs with own
  · have replaced : (documents.find? fun other =>
        decide (other.id ≠ document.id ∧ other.id = id)) = none := by
      refine List.find?_eq_none.mpr fun other _ => ?_
      simp [own]
    rw [replaced]
    simp [own]
  · have kept : (fun other : Document => decide (other.id ≠ document.id ∧ other.id = id)) =
        fun other => decide (other.id = id) := by
      funext other
      refine decide_eq_decide.mpr ⟨fun both => both.2, fun same => ⟨fun twin => ?_, same⟩⟩
      exact own (twin.symm.trans same)
    rw [kept, List.find?_singleton, if_neg (by simpa using own), Option.or_none]

theorem Document.find?_filter (passes : Document → Bool) {documents : List Document}
    (distinct : (documents.map (·.id)).Nodup) (id : String) :
    ((documents.filter passes).find? fun other => other.id = id) =
      (documents.find? fun other => other.id = id).filter passes := by
  induction documents with
  | nil => rfl
  | cons first rest ih =>
      obtain ⟨absent, later⟩ := List.nodup_cons.mp distinct
      by_cases own : first.id = id
      · subst own
        rw [List.find?_cons_of_pos (by simp), Option.filter_some]
        split_ifs with passed
        · rw [List.filter_cons_of_pos passed, List.find?_cons_of_pos (by simp)]
        · rw [List.filter_cons_of_neg passed]
          refine List.find?_eq_none.mpr fun other member => ?_
          rw [decide_eq_true_eq]
          exact fun same => absent (List.mem_map.mpr ⟨other, List.mem_of_mem_filter member, same⟩)
      · rw [List.find?_cons_of_neg (by simpa using own), ← ih later]
        by_cases passed : passes first = true
        · rw [List.filter_cons_of_pos passed, List.find?_cons_of_neg (by simpa using own)]
        · rw [List.filter_cons_of_neg passed]

namespace Memory

/-- The fields under which a document is kept; those of the curriculum index get the time. -/
def ingested (memory : Memory) (operation : BulkOperation) : Fields :=
  if operation.action.index = CurriculumIndexer.indexName then
    operation.document.insert Fields.timeField (.string memory.now.bound)
  else operation.document

def write (memory : Memory) (operation : BulkOperation) : Memory where
  shelf index :=
    if index = operation.action.index then
      Document.put ⟨operation.action.id, memory.ingested operation⟩ (memory.shelf index)
    else memory.shelf index
  contexts := memory.contexts
  opened := memory.opened
  now := memory.now
  distinct index := by
    split_ifs
    · exact Document.nodup_put _ (memory.distinct index)
    · exact memory.distinct index

open Classical in
noncomputable def remove (memory : Memory) (name : String) (selection : Selection) : Memory where
  shelf index :=
    if index = name then
      (memory.shelf index).filter fun document => ¬ selection.Selects document.source
    else memory.shelf index
  contexts := memory.contexts
  opened := memory.opened
  now := memory.now
  distinct index := by
    split_ifs
    · exact (memory.distinct index).sublist (List.filter_sublist.map _)
    · exact memory.distinct index

def drop (memory : Memory) (name : String) : Memory where
  shelf index := if index = name then [] else memory.shelf index
  contexts := memory.contexts
  opened := memory.opened
  now := memory.now
  distinct index := by
    split_ifs
    · simp
    · exact memory.distinct index

/-- Opens a scroll context or changes it, or closes it if it is left without a state. -/
def setContext (memory : Memory) (scrollId : String) (scroll : Option Scroll) : Memory :=
  { memory with
    contexts := fun other => if other = scrollId then scroll else memory.contexts other }

/-- A hit that shows a field of a document. -/
def hit (field : String) (document : Document) : Json :=
  .singleton "_source" (.object
    (match document.get? field with
      | some value => [(field, value)]
      | none => []))

/-- The answer with one page of a scroll context. -/
def page (scrollId : String) (hits : List Json) : Json :=
  .object [("_scroll_id", .string scrollId), ("hits", .singleton "hits" (.array hits))]

def bucketList (keys : List Json) : Json :=
  .singleton "buckets" (.array (keys.map (.singleton "key")))

def buckets (field : String) (keys : List Json) : Json :=
  .singleton "aggregations" (.singleton field (bucketList keys))

open Classical in
/-- The values that an aggregation counts, each once. -/
noncomputable def tally (aggregation : Aggregation) (documents : List Document) : List Json :=
  ((documents.filter fun document => ∀ filter ∈ aggregation.filters,
    document.source.Passes filter).filterMap (·.get? aggregation.field)).dedup

noncomputable def keys (memory : Memory) (index : String) (body : Json) (name : String) :
    List Json :=
  match Aggregation.ofBody? body name with
  | some aggregation => (tally aggregation (memory.shelf index)).take aggregation.limit
  | none => []

/-- The answer with the buckets of all aggregations of a body. -/
noncomputable def count (memory : Memory) (index : String) (body : Json) : Json :=
  let asked := ((body.get? "aggs").bind Json.object?).getD []
  .singleton "aggregations"
    (.object (asked.map fun entry => (entry.1, bucketList (memory.keys index body entry.1))))

/-- Opens a scroll context, and answers with its first page. -/
def openContext (memory : Memory) (index : String) (listing : Listing) : Json × Memory :=
  let scroll := Scroll.mk ((memory.shelf index).map (hit listing.field)) listing.limit
  let scrollId := Text.decimalString memory.opened
  (page scrollId scroll.page,
    { memory.setContext scrollId (some scroll.rest) with opened := memory.opened + 1 })

/-- Answers a search; there are no best matches of a text. -/
noncomputable def search (memory : Memory) (request : SearchRequest) : Json × Memory :=
  match request.scroll, Listing.ofBody? request.query.body with
  | none, _ => (memory.count request.index request.query.body, memory)
  | some _, some listing => memory.openContext request.index listing
  | some _, none => (.object [], memory)

def nextPage (memory : Memory) (scrollId : String) : Except EngineError Json × Memory :=
  match memory.contexts scrollId with
  | some scroll =>
    (.ok (page scrollId scroll.page), memory.setContext scrollId (some scroll.rest))
  | none => (.error (.scroll "No such context"), memory)

noncomputable def removeSelected (memory : Memory) (index : String) (query : Query) : Memory :=
  match Selection.ofBody? query.body with
  | some selection => memory.remove index selection
  | none => memory

noncomputable def answer (memory : Memory) :
    (call : EngineCall) → Except EngineError call.Answer × Memory
  | .search request => (.ok (memory.search request).1, (memory.search request).2)
  | .scroll scrollId _ => memory.nextPage scrollId
  | .clearScroll scrollId => (.ok (), memory.setContext scrollId none)
  | .bulk operations => (.ok ⟨0, false, []⟩, operations.foldl write memory)
  | .deleteByQuery index query => (.ok ⟨0, []⟩, memory.removeSelected index query)
  | .indexExists _ => (.ok true, memory)
  | .createIndex _ _ => (.ok (), memory)
  | .deleteIndex index => (.ok (), memory.drop index)
  | .putPipeline _ _ => (.ok (), memory)
  | .health => (.ok true, memory)

/-- The backend in memory, with the given files. -/
noncomputable def backend (files : String → Except IndexingError (Option ByteString)) :
    Backend Memory where
  serve
    | .engine call, memory => memory.answer call
    | .file path, memory => (files path, memory)
    | .clock, memory => (memory.now, memory)
  documents := shelf
  remaining := contexts
  files := files

section Exact

variable (files : String → Except IndexingError (Option ByteString))

theorem stored_write (memory : Memory) (operation : BulkOperation) (index id : String) :
    (backend files).stored (memory.write operation) index id =
      if operation.action = ⟨index, id⟩ then some (memory.ingested operation)
      else (backend files).stored memory index id := by
  obtain ⟨⟨name, key⟩, fields⟩ := operation
  by_cases same : index = name
  · subst same
    simp only [Backend.stored, backend, write, if_pos, Document.find?_put, BulkAction.mk.injEq,
      true_and]
    split_ifs <;> rfl
  · simp [Backend.stored, backend, write, same, Ne.symm same]

theorem lasting_ingested (memory : Memory) (operation : BulkOperation) :
    (memory.ingested operation).lasting = operation.document.lasting := by
  unfold ingested
  split_ifs
  · exact Fields.lasting_insert_time _ _
  · rfl

/-- Writing documents replaces none but by one of them. -/
theorem stored_writes (operations : List BulkOperation) (memory : Memory) (index id : String) :
    (backend files).stored (operations.foldl write memory) index id =
        (backend files).stored memory index id ∨
      ∃ operation ∈ operations, operation.action = ⟨index, id⟩ ∧
        (backend files).lasting (operations.foldl write memory) index id =
          some operation.document.lasting := by
  induction operations generalizing memory with
  | nil => exact .inl rfl
  | cons operation rest ih =>
      rw [List.foldl_cons]
      rcases ih (memory.write operation) with same | ⟨other, member, action, lasting⟩
      · by_cases own : operation.action = ⟨index, id⟩
        · refine .inr ⟨operation, List.mem_cons_self, own, ?_⟩
          rw [Backend.lasting, same, stored_write, if_pos own, Option.map_some, lasting_ingested]
        · rw [stored_write, if_neg own] at same
          exact .inl same
      · exact .inr ⟨other, List.mem_cons_of_mem operation member, action, lasting⟩

theorem stored_writes_of_ne {operations : List BulkOperation} {index id : String}
    (others : ∀ operation ∈ operations, operation.action ≠ ⟨index, id⟩) (memory : Memory) :
    (backend files).stored (operations.foldl write memory) index id =
      (backend files).stored memory index id := by
  rcases stored_writes files operations memory index id with same | ⟨operation, member, action, _⟩
  · exact same
  · exact absurd action (others operation member)

/-- The last operation for an id decides about the document. -/
theorem lasting_writes (earlier : List BulkOperation) (operation : BulkOperation)
    {later : List BulkOperation} (last : ∀ other ∈ later, other.action ≠ operation.action)
    (memory : Memory) :
    (backend files).lasting ((earlier ++ operation :: later).foldl write memory)
      operation.action.index operation.action.id = some operation.document.lasting := by
  rw [List.foldl_append, List.foldl_cons, Backend.lasting, stored_writes_of_ne files last,
    stored_write, if_pos rfl, Option.map_some, lasting_ingested]

theorem shelf_writes_of_ne {operations : List BulkOperation} {index : String}
    (others : ∀ operation ∈ operations, operation.action.index ≠ index) (memory : Memory) :
    (operations.foldl write memory).shelf index = memory.shelf index := by
  induction operations generalizing memory with
  | nil => rfl
  | cons operation rest ih =>
      rw [List.foldl_cons, ih (fun other member => others other (List.mem_cons_of_mem _ member))]
      simp [write, (others operation List.mem_cons_self).symm]

theorem contexts_writes (operations : List BulkOperation) (memory : Memory) :
    (operations.foldl write memory).contexts = memory.contexts := by
  induction operations generalizing memory with
  | nil => rfl
  | cons operation rest ih => exact ih (memory.write operation)

open Classical in
theorem stored_remove (memory : Memory) (index : String) (selection : Selection) (id : String) :
    (backend files).stored (memory.remove index selection) index id =
      ((backend files).stored memory index id).filter fun fields => ¬ selection.Selects fields := by
  simp only [Backend.stored, backend, remove, if_pos]
  rw [Document.find?_filter _ (memory.distinct index), Option.filter_map]
  rfl

theorem removeSelected_of_asks (memory : Memory) (index : String) {query : Query}
    {selection : Selection} (asked : Selection.ofBody? query.body = some selection) :
    memory.removeSelected index query = memory.remove index selection := by
  rw [removeSelected, asked]

/-- An operation on the engine leaves the documents of an index alone that it does not touch. -/
theorem shelf_answer (call : EngineCall) (memory : Memory) {index : String}
    (untouched : ¬ (Service.Request.engine call).Touches index) :
    (memory.answer call).2.shelf index = memory.shelf index := by
  cases call with
  | search request =>
      dsimp only [answer]
      unfold search
      split <;> rfl
  | scroll scrollId keepAlive =>
      dsimp only [answer]
      unfold nextPage
      split <;> rfl
  | bulk operations =>
      refine shelf_writes_of_ne (fun operation member same => ?_) memory
      exact untouched ⟨operation, member, same⟩
  | deleteByQuery name query =>
      have other : index ≠ name := fun same => untouched same.symm
      dsimp only [answer]
      unfold removeSelected
      split
      · exact if_neg other
      · rfl
  | deleteIndex name => exact if_neg fun same => untouched same.symm
  | _ => rfl

theorem contexts_answer (call : EngineCall) (memory : Memory)
    (unscrolled : ¬ (Service.Request.engine call).Scrolls) :
    (memory.answer call).2.contexts = memory.contexts := by
  cases call with
  | search request =>
      dsimp only [answer]
      unfold search
      split
      · rfl
      · next kept _ =>
          exact absurd (fun lost => Option.some_ne_none _ (kept.symm.trans lost)) unscrolled
      · rfl
  | scroll scrollId keepAlive => exact absurd trivial unscrolled
  | clearScroll scrollId => exact absurd trivial unscrolled
  | bulk operations => exact contexts_writes operations memory
  | deleteByQuery name query =>
      dsimp only [answer]
      unfold removeSelected
      split <;> rfl
  | _ => rfl

theorem showsField_hit (field : String) (document : Document) :
    ShowsField field document (hit field document) := by
  refine ⟨_, by rw [hit, Json.singleton, Json.get?, Fields.get?, if_pos rfl], ?_⟩
  cases shown : document.get? field with
  | none => rfl
  | some value => simp [Json.get?, Fields.get?]

theorem reports_of_get? {answer aggregations : Json} {name : String} {keys : List Json}
    (shown : answer.get? "aggregations" = some aggregations)
    (listed : aggregations.get? name = some (bucketList keys)) : Reports answer name keys := by
  refine ⟨keys.map (Json.singleton "key"), ?_, ?_⟩
  · simp only [bucketsOf?, shown, Option.bind_eq_bind, Option.bind_some, listed]
    rfl
  · rw [List.forall₂_map_left_iff, List.forall₂_same]
    intro key _
    simp [Json.singleton, Json.get?, Fields.get?]

theorem reports_buckets (field : String) (keys : List Json) :
    Reports (buckets field keys) field keys :=
  reports_of_get? rfl (if_pos rfl)

theorem get?_map_names (fields : Fields) (value : String → Json) (name : String) :
    Fields.get? name (fields.map fun entry => (entry.1, value entry.1)) =
      (Fields.get? name fields).map fun _ => value name := by
  induction fields with
  | nil => rfl
  | cons field rest ih =>
      rw [List.map_cons, Fields.get?, Fields.get?, ih]
      split_ifs with same
      · rw [same, Option.map_some]
      · rfl

theorem reports_count (memory : Memory) (index : String) {body : Json} {name : String}
    {aggregation : Aggregation} (asked : Aggregation.ofBody? body name = some aggregation) :
    Reports (memory.count index body) name
      ((tally aggregation (memory.shelf index)).take aggregation.limit) := by
  have keys : memory.keys index body name =
      (tally aggregation (memory.shelf index)).take aggregation.limit := by
    rw [Memory.keys, asked]
  obtain ⟨aggregations, whole, entry, named⟩ : ∃ aggregations, body.get? "aggs" =
      some aggregations ∧ ∃ entry, aggregations.get? name = some entry := by
    simp only [Aggregation.ofBody?, Option.bind_eq_bind, Option.bind_eq_some_iff] at asked
    obtain ⟨_, _, _, _, _, _, _, _, aggregations, whole, entry, named, _⟩ := asked
    exact ⟨aggregations, whole, entry, named⟩
  refine reports_of_get? rfl ?_
  cases aggregations with
  | object fields =>
      change Fields.get? name fields = some entry at named
      simp only [whole, Option.bind_some, Json.object?, Option.getD_some]
      change Fields.get? name (fields.map fun entry =>
        (entry.1, bucketList (memory.keys index body entry.1))) = _
      rw [get?_map_names fields fun name => bucketList (memory.keys index body name), named,
        Option.map_some, keys]
  | _ => cases named

theorem nodup_tally (aggregation : Aggregation) (documents : List Document) :
    (tally aggregation documents).Nodup := by
  classical
  exact List.nodup_dedup _

theorem mem_tally_iff {aggregation : Aggregation} {documents : List Document} {value : Json} :
    value ∈ tally aggregation documents ↔ aggregation.Counts documents value := by
  simp [tally, Aggregation.Counts, and_assoc]

theorem setContext_contexts (memory : Memory) (scrollId : String) (scroll : Option Scroll) :
    (memory.setContext scrollId scroll).contexts scrollId = scroll := if_pos rfl

theorem nextPage_eq {memory : Memory} {scrollId : String} {scroll : Scroll}
    (held : memory.contexts scrollId = some scroll) :
    memory.nextPage scrollId =
      (.ok (page scrollId scroll.page), memory.setContext scrollId (some scroll.rest)) := by
  rw [nextPage, held]

theorem search_of_lists (memory : Memory) (index keepAlive : String) {query : Query}
    {listing : Listing} (asked : Listing.ofBody? query.body = some listing) :
    memory.search ⟨index, query, some keepAlive⟩ = memory.openContext index listing := by
  rw [search, asked]

theorem exact_backend : (backend files).Exact where
  distinct memory index := memory.distinct index
  file _ _ := rfl
  kept request memory index untouched := by
    cases request with
    | engine call => exact shelf_answer call memory untouched
    | _ => rfl
  opened request memory unscrolled := by
    cases request with
    | engine call => exact contexts_answer call memory unscrolled
    | _ => rfl
  replaced := stored_writes files
  written := by
    rintro _ memory reply _ _ earlier operation later rfl last
    exact lasting_writes files earlier operation last memory
  spared index query selection memory id asked := by
    change (backend files).stored (memory.removeSelected index query) index id = _ ∨
      (backend files).stored (memory.removeSelected index query) index id = none ∧ _
    rw [removeSelected_of_asks memory index asked, stored_remove]
    cases present : (backend files).stored memory index id with
    | none => exact .inl rfl
    | some fields =>
        by_cases selected : selection.Selects fields
        · exact .inr ⟨Option.filter_some_neg (by simpa using selected), fields, rfl, selected⟩
        · exact .inl (Option.filter_some_pos (by simpa using selected))
  removed index query selection memory reply asked _ _ id fields present selected := by
    change (backend files).stored (memory.removeSelected index query) index id = none
    rw [removeSelected_of_asks memory index asked, stored_remove, present]
    exact Option.filter_some_neg (by simpa using selected)
  found index query name aggregation memory answer asked answered := by
    obtain rfl := Except.ok.inj answered
    exact ⟨_, reports_count memory index asked, fun key member =>
      mem_tally_iff.mp (List.mem_of_mem_take member)⟩
  listed index query keepAlive listing memory answer asked answered := by
    have opened := search_of_lists memory index keepAlive asked
    have shown : memory.search ⟨index, query, some keepAlive⟩ = _ := opened
    have first : (memory.search ⟨index, query, some keepAlive⟩).1 = answer :=
      Except.ok.inj answered
    rw [opened] at first
    obtain rfl := first
    refine ⟨(memory.shelf index).map (hit listing.field), Text.decimalString memory.opened, ?_,
      rfl, ?_⟩
    · rw [List.forall₂_map_right_iff]
      exact List.forall₂_same.mpr fun document _ => showsField_hit listing.field document
    · change (memory.search ⟨index, query, some keepAlive⟩).2.contexts _ = _
      rw [opened]
      exact memory.setContext_contexts _ _
  continued scrollId keepAlive memory scroll answer held answered := by
    have turned := nextPage_eq held
    have shown : (memory.nextPage scrollId).1 = .ok answer := answered
    rw [turned] at shown
    obtain rfl := Except.ok.inj shown
    refine ⟨rfl, ?_⟩
    change (memory.nextPage scrollId).2.contexts scrollId = _
    rw [turned]
    exact memory.setContext_contexts _ _

theorem neverFails_backend : (backend files).NeverFails where
  search request memory := ⟨(memory.search request).1, rfl⟩
  scroll scrollId keepAlive memory scroll held := by
    refine ⟨page scrollId scroll.page, ?_⟩
    exact congrArg Prod.fst (nextPage_eq held)
  bulk operations memory := ⟨⟨0, false, []⟩, rfl, rfl⟩
  deletion index query memory := ⟨⟨0, []⟩, rfl, rfl⟩

end Exact

/-- Nothing was indexed. -/
def blank (now : Instant) : Memory where
  shelf _ := []
  contexts _ := none
  opened := 0
  now
  distinct _ := .nil

/-- Time goes by. -/
def wait (memory : Memory) (now : Instant) : Memory :=
  { memory with now }

/-- After documents are written an index holds nothing but them and what it held before. -/
theorem mem_shelf_writes {operations : List BulkOperation} {memory : Memory} {index : String}
    {document : Document} (member : document ∈ (operations.foldl write memory).shelf index) :
    document ∈ memory.shelf index ∨ ∃ operation ∈ operations,
      operation.action = ⟨index, document.id⟩ ∧ document.source = memory.ingested operation := by
  induction operations generalizing memory with
  | nil => exact .inl member
  | cons operation rest ih =>
      rw [List.foldl_cons] at member
      rcases ih member with written | ⟨other, inside, action, source⟩
      · simp only [write] at written
        split_ifs at written with own
        · rcases List.mem_append.mp written with kept | new
          · exact .inl (List.mem_of_mem_filter kept)
          · obtain rfl := List.mem_singleton.mp new
            exact .inr ⟨operation, List.mem_cons_self, by rw [own], rfl⟩
        · exact .inl written
      · exact .inr ⟨other, List.mem_cons_of_mem operation inside, action, source⟩

theorem mem_shelf_write (memory : Memory) {index : String} (document : Document)
    (untimed : index ≠ CurriculumIndexer.indexName) :
    document ∈ (memory.write (.index index document)).shelf index := by
  simp [write, ingested, BulkOperation.index, Document.put, untimed]

theorem length_shelf_writes_le (operations : List BulkOperation) (memory : Memory)
    (index : String) :
    ((operations.foldl write memory).shelf index).length ≤
      (memory.shelf index).length + operations.length := by
  induction operations generalizing memory with
  | nil => exact Nat.le_refl _
  | cons operation rest ih =>
      have one : ((memory.write operation).shelf index).length ≤
          (memory.shelf index).length + 1 := by
        simp only [write]
        split_ifs
        · rw [Document.put, List.length_append]
          exact Nat.add_le_add_right (List.length_filter_le _ _) 1
        · exact Nat.le_succ _
      rw [List.foldl_cons, List.length_cons]
      have others := ih (memory.write operation)
      omega

end Memory
end LearningIndex
