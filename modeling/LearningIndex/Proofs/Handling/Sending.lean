import LearningIndex.Proofs.Handling.Collecting

/-!
# What a call sends

A call of an indexer writes once at most: what it has collected goes out by one bulk request, after
which nothing is asked any more.  The entities that an answer lists have no part in it, neither by a
document nor by a read of their file.  Whatever fails before the bulk request, nothing is written,
and the failure is the outcome.
-/

namespace LearningIndex

open Calendar (Instant)

namespace IndexCall

/-- What the call does; the indexers may have no engine. -/
def perform (enabled : Bool) (keepAlive : String) (uploadLimit : Nat) : IndexCall → Task Bool
  | learningMaterials entities force =>
    (LearningMaterialIndexer.new enabled keepAlive uploadLimit).index entities force
  | courses entities stamp => (CurriculumIndexer.new enabled keepAlive).index entities stamp
  | descriptors entities stamp => (MeshIndexer.new enabled keepAlive).index entities stamp

theorem perform_true (keepAlive : String) (uploadLimit : Nat) (call : IndexCall) :
    call.perform true keepAlive uploadLimit = call.task keepAlive uploadLimit := by
  cases call <;> rfl

theorem exists_error_of_disabled (keepAlive : String) (uploadLimit : Nat) (call : IndexCall) :
    ∃ error, call.perform false keepAlive uploadLimit = .done (.error error) := by
  cases call with
  | learningMaterials entities force => exact ⟨_, rfl⟩
  | courses entities stamp =>
      rw [perform, CurriculumIndexer.index, CurriculumIndexer.outdated]
      cases expectAll .course Entity.course? entities <;> exact ⟨_, rfl⟩
  | descriptors entities stamp => exact ⟨_, rfl⟩

/-- How a call goes whose entities are all accepted, whatever is answered. -/
inductive Proceeds (call : IndexCall) (indexer : LearningMaterialIndexer) :
    List (Exchange services) → Except IndexingError Bool → Prop
  | stopped {trace : List (Exchange services)} {error : IndexingError}
      (collects : call.Collects indexer trace (.error error)) :
      Proceeds call indexer trace (.error error)
  | idle {trace : List (Exchange services)} (collects : call.Collects indexer trace (.ok [])) :
      Proceeds call indexer trace (.ok true)
  | sent {trace : List (Exchange services)} {documents : List Document}
      (collects : call.Collects indexer trace (.ok documents)) (filled : documents ≠ [])
      (reply : Except EngineError BulkReply) :
      Proceeds call indexer
        (trace ++ [⟨.engine (.bulk (documents.map (.index call.kind.home))), reply⟩])
        ((reply.mapError .engine).map fun reply => !reply.errors)

section Proceeding

variable {call : IndexCall} {indexer : LearningMaterialIndexer} {keepAlive : String}
variable {trace : List (Exchange services)} {outcome : Except IndexingError Bool}

theorem proceeds_of_yields_andThen_write {prelude : Task (List Document)}
    (collects : ∀ {trace outcome}, prelude.Yields trace outcome →
      call.Collects indexer trace outcome)
    (run : (prelude.andThen (Catalog.write ⟨call.kind.home, keepAlive, true⟩)).Yields trace
      outcome) :
    call.Proceeds indexer trace outcome := by
  rcases Program.yields_andThen_iff.mp run with
    ⟨error, failed, rfl⟩ | ⟨documents, first, second, rfl, collected, writing⟩
  · exact .stopped (collects failed)
  · cases documents with
    | nil =>
        obtain ⟨rfl, rfl⟩ := Program.yields_done_iff.mp writing
        rw [List.append_nil]
        exact .idle (collects collected)
    | cons document rest =>
        obtain ⟨inner, asked, rfl⟩ := Program.yields_andThen_map_iff.mp writing
        obtain ⟨reply, rfl, rfl⟩ := Task.yields_engine_iff.mp asked
        exact .sent (collects collected) (List.cons_ne_nil _ _) reply

/-- A call whose entities are all accepted collects and then writes. -/
theorem proceeds_of_yields (uniform : call.IsUniform) {uploadLimit : Nat}
    (run : (call.task keepAlive uploadLimit).Yields trace outcome) :
    call.Proceeds (.new true keepAlive uploadLimit) trace outcome := by
  rcases uniform.exists_items with
    ⟨materials, force, rfl⟩ | ⟨courses, stamp, rfl⟩ | ⟨descriptors, stamp, rfl⟩
  · rw [task, LearningMaterialIndexer.index_eq_andThen_write] at run
    exact proceeds_of_yields_andThen_write collects_learningMaterials run
  · rw [task, CurriculumIndexer.index_eq_andThen_write] at run
    exact proceeds_of_yields_andThen_write collects_courses run
  · rw [task, MeshIndexer.index_eq_andThen_write] at run
    exact proceeds_of_yields_andThen_write collects_descriptors run

end Proceeding

/-- What a call writes, reads and returns, whatever the services answer. -/
structure Sends (call : IndexCall) (indexer : LearningMaterialIndexer)
    (trace : List (Exchange services)) (outcome : Except IndexingError Bool) : Prop where
  /-- One request writes at most, a bulk request, which is the last request of all. -/
  last : ∃ front, (∀ exchange ∈ front, ¬ exchange.request.IsWrite) ∧
    (trace = front ∨ ∃ operations reply, trace = front ++ [⟨.engine (.bulk operations), reply⟩])
  /-- Before it, only the index is searched for entities of the call, and what the documents need is
  fetched. -/
  asked : ∀ exchange ∈ trace, ¬ exchange.request.IsWrite →
    call.Inquires exchange.request ∨ exchange.request.IsFetch
  /-- The files that are read are those of entities that no answer lists, in order. -/
  reads : trace.filterMap (·.request.path?) <+: (call.unlisted trace).filterMap (·.filePath?)
  /-- The bulk request writes the documents of the entities that no answer lists, in order, to the
  index of the indexer.  There are some, and the outcome is the reply. -/
  sent : ∀ front operations reply, trace = front ++ [⟨.engine (.bulk operations), reply⟩] →
    operations ≠ [] ∧
      (∃ documents, BuiltFrom indexer (call.unlisted front) front documents ∧
        operations = documents.map (.index call.kind.home)) ∧
      outcome = (reply.mapError .engine).map fun reply => !reply.errors
  /-- Success without a bulk request means that there are no such documents. -/
  unsent : (∀ exchange ∈ trace, ¬ exchange.request.IsWrite) → ∀ result, outcome = .ok result →
    result = true ∧ BuiltFrom indexer (call.unlisted trace) trace []
  /-- The call says that something was refused exactly when the reply to the bulk request does. -/
  degraded : outcome = .ok false ↔
    ∃ operations reply, ⟨.engine (.bulk operations), .ok reply⟩ ∈ trace ∧ reply.errors = true
  /-- A fault of a service is the outcome. -/
  returned : ∀ exchange ∈ trace, ∀ error, exchange.fault? = some error → outcome = .error error
  /-- An answer to a search that cannot be read is an error. -/
  refused : ∀ request answer, ⟨.engine (.search request), .ok answer⟩ ∈ trace →
    call.CannotRead answer → ∃ text, outcome = .error (.engine (.parse text))
  /-- Nothing is written before an error, unless it is the one of the bulk request. -/
  failed : ∀ error, outcome = .error error →
    (∀ exchange ∈ trace, ¬ exchange.request.IsWrite) ∨
      ∃ operations cause, ⟨.engine (.bulk operations), .error cause⟩ ∈ trace ∧
        error = .engine cause

section Sending

variable {call : IndexCall} {indexer : LearningMaterialIndexer}
variable {trace : List (Exchange services)}

theorem Collects.not_isWrite {outcome : Except IndexingError (List Document)}
    (collects : call.Collects indexer trace outcome) :
    ∀ exchange ∈ trace, ¬ exchange.request.IsWrite := fun exchange member =>
  (collects.asked exchange member).elim (fun inquires => inquires.isSearch.not_isWrite)
    fun fetch => fetch.not_isWrite

theorem collects_nil (error : IndexingError) : call.Collects indexer [] (.error error) where
  asked := by simp
  reads := List.nil_prefix
  built := by simp
  returned := by simp
  refused := by simp

theorem sends_of_collects {collected : Except IndexingError (List Document)}
    (collects : call.Collects indexer trace collected)
    (nothing : ∀ documents, collected = .ok documents → documents = []) :
    call.Sends indexer trace (collected.map fun _ => true) := by
  have quiet := collects.not_isWrite
  have unsent (operations : List BulkOperation) (reply : Except EngineError BulkReply) :
      ⟨.engine (.bulk operations), reply⟩ ∉ trace := fun member => quiet _ member trivial
  refine ⟨⟨trace, quiet, .inl rfl⟩, fun exchange member _ => collects.asked exchange member,
    collects.reads, ?_, fun _ result same => ?_, ⟨fun same => ?_, ?_⟩, ?_, ?_,
    fun _ _ => .inl quiet⟩
  · rintro front operations reply rfl
    exact absurd (List.mem_append_right _ (List.mem_singleton_self _)) (unsent operations reply)
  · cases collected with
    | error error => cases same
    | ok documents =>
        obtain rfl := nothing documents rfl
        exact ⟨(Except.ok.inj same).symm, collects.built [] rfl⟩
  · cases collected <;> simp [Except.map] at same
  · rintro ⟨operations, reply, member, _⟩
    exact absurd member (unsent operations _)
  · intro exchange member error fault
    rw [collects.returned exchange member error fault]
    rfl
  · intro request answer member illegible
    obtain ⟨text, same⟩ := collects.refused request answer member illegible
    exact ⟨text, by rw [same]; rfl⟩

theorem unlisted_append_bulk (operations : List BulkOperation)
    (reply : Except EngineError BulkReply) :
    call.unlisted (trace ++ [⟨.engine (.bulk operations), reply⟩]) = call.unlisted trace := by
  have silent (field : String) (key : Json) :
      ¬ Listed field [⟨.engine (.bulk operations), reply⟩] key := by
    rintro ⟨_, _, _, _, member, _⟩
    cases List.mem_singleton.mp member
  refine List.filter_congr fun entity _ => decide_eq_decide.mpr (not_congr ?_)
  rw [listed_append_iff, or_iff_left (silent _ _)]

/-- A call that has something to write sends it, and returns what the engine says of it. -/
theorem sends_append_bulk {documents : List Document}
    (collects : call.Collects indexer trace (.ok documents)) (filled : documents ≠ [])
    (reply : Except EngineError BulkReply) :
    call.Sends indexer
      (trace ++ [⟨.engine (.bulk (documents.map (.index call.kind.home))), reply⟩])
      ((reply.mapError .engine).map fun reply => !reply.errors) := by
  -- No exchange before the bulk request writes, so this one is the first write and the last.
  have quiet := collects.not_isWrite
  have only {operations : List BulkOperation} {answer : Except EngineError BulkReply}
      (member : ⟨.engine (.bulk operations), answer⟩ ∈
        trace ++ [⟨.engine (.bulk (documents.map (.index call.kind.home))), reply⟩]) :
      answer = reply := by
    rcases List.mem_append.mp member with early | final
    · exact absurd trivial (quiet _ early)
    · cases List.mem_singleton.mp final
      rfl
  refine ⟨⟨trace, quiet, .inr ⟨_, reply, rfl⟩⟩, fun exchange member harmless => ?_, ?_, ?_,
    fun silent => ?_, ⟨fun same => ?_, ?_⟩, fun exchange member error fault => ?_,
    fun request answer member illegible => ?_, fun error same => ?_⟩
  · rcases List.mem_append.mp member with early | final
    · exact collects.asked exchange early
    · obtain rfl := List.mem_singleton.mp final
      exact absurd trivial harmless
  · rw [unlisted_append_bulk, List.filterMap_append]
    simpa [Service.Request.path?] using collects.reads
  · intro front operations answer same
    obtain ⟨rfl, ends⟩ := List.append_inj' same rfl
    cases List.singleton_inj.mp ends
    exact ⟨by simpa using filled, ⟨documents, collects.built documents rfl, rfl⟩, rfl⟩
  · exact absurd trivial (silent _ (List.mem_append_right _ (List.mem_singleton_self _)))
  · cases reply with
    | error error => cases same
    | ok reply =>
        refine ⟨_, reply, List.mem_append_right _ (List.mem_singleton_self _), ?_⟩
        simpa using Except.ok.inj same
  · rintro ⟨operations, answer, member, errors⟩
    obtain rfl := only member
    exact congrArg (fun errors => Except.ok !errors) errors
  · rcases List.mem_append.mp member with early | final
    · cases collects.returned exchange early error fault
    · obtain rfl := List.mem_singleton.mp final
      cases reply with
      | error cause =>
          obtain rfl := Option.some.inj fault
          rfl
      | ok reply => cases fault
  · rcases List.mem_append.mp member with early | final
    · obtain ⟨text, same⟩ := collects.refused request answer early illegible
      cases same
    · cases List.mem_singleton.mp final
  · cases reply with
    | error cause =>
        refine .inr ⟨_, cause, List.mem_append_right _ (List.mem_singleton_self _), ?_⟩
        exact (Except.error.inj same).symm
    | ok reply => cases same

theorem Proceeds.sends {outcome : Except IndexingError Bool}
    (proceeds : call.Proceeds indexer trace outcome) : call.Sends indexer trace outcome := by
  cases proceeds with
  | stopped collects => exact sends_of_collects collects (by simp)
  | idle collects =>
      exact sends_of_collects collects fun documents same => (Except.ok.inj same).symm
  | sent collects filled reply => exact sends_append_bulk collects filled reply

end Sending

/-- What a call does, whatever the services answer. -/
structure Conduct (call : IndexCall) (enabled : Bool) (indexer : LearningMaterialIndexer)
    (trace : List (Exchange services)) (outcome : Except IndexingError Bool) : Prop
    extends call.Sends indexer trace outcome where
  mixed : enabled = true → ∀ before entity after, call.entities = before ++ entity :: after →
    (∀ item ∈ before, item.kind = call.kind) → entity.kind ≠ call.kind →
      trace = [] ∧ outcome = .error (.invalidInput call.kind entity.kind)
  disabled : enabled = false → trace = [] ∧ ∃ error, outcome = .error error

/-- A call writes once at most, at its end, and only what no answer lists; everything that fails
before keeps it from writing and is its outcome. -/
theorem conduct_of_yields {enabled : Bool} {keepAlive : String} {uploadLimit : Nat}
    {call : IndexCall} {trace : List (Exchange services)} {outcome : Except IndexingError Bool}
    (run : (call.perform enabled keepAlive uploadLimit).Yields trace outcome) :
    call.Conduct enabled (.new enabled keepAlive uploadLimit) trace outcome := by
  cases enabled with
  | false =>
      obtain ⟨error, failed⟩ := call.exists_error_of_disabled keepAlive uploadLimit
      rw [failed] at run
      obtain ⟨rfl, rfl⟩ := Program.yields_done_iff.mp run
      exact ⟨sends_of_collects (collects_nil error) (by simp), by simp,
        fun _ => ⟨rfl, error, rfl⟩⟩
  | true =>
      rw [perform_true] at run
      have sends : call.Sends (.new true keepAlive uploadLimit) trace outcome := by
        by_cases uniform : call.IsUniform
        · exact (proceeds_of_yields uniform run).sends
        · obtain ⟨error, failed⟩ := exists_error keepAlive uploadLimit uniform
          rw [failed] at run
          obtain ⟨rfl, rfl⟩ := Program.yields_done_iff.mp run
          exact sends_of_collects (collects_nil error) (by simp)
      refine ⟨sends, fun _ before entity after listed accepted other => ?_, by simp⟩
      rw [task_eq_error keepAlive uploadLimit listed accepted other] at run
      exact Program.yields_done_iff.mp run

namespace Sample

/-- A material that the index holds. -/
def listed : LearningMaterial := ⟨1, "Cells", none, some "cells.pdf", some "a/cells.pdf"⟩

/-- A material that the index does not hold. -/
def missing : LearningMaterial := ⟨2, "Tissues", none, some "tissues.pdf", some "a/tissues.pdf"⟩

/-- The indexer of the two materials. -/
def shelf : LearningMaterialIndexer := .new true "1m" 1000

def both : IndexCall := .learningMaterials ([listed, missing].map .learningMaterial) false

/-- The documents of the missing material, whose file has no text. -/
def sheet : List Document := shelf.documents missing []

/-- What happens when the engine lists one material and refuses the documents of the other. -/
def partly : List (Exchange services) :=
  [⟨shelf.catalog.portionRequest LearningMaterialIndexer.idField none [(1 : Int), 2],
      .ok (Memory.buckets LearningMaterialIndexer.idField [.integer 1])⟩,
    ⟨.file "learning_material_texts/a/tissues.pdf", .ok none⟩,
    ⟨.engine (.bulk (sheet.map (.index LearningMaterialIndexer.indexName))), .ok ⟨3, true, []⟩⟩]

theorem yields_partly : (both.perform true "1m" 1000).Yields partly (.ok false) := by
  have found : (shelf.skipped [listed, missing] false).Yields
      [⟨shelf.catalog.portionRequest LearningMaterialIndexer.idField none [(1 : Int), 2],
        .ok (Memory.buckets LearningMaterialIndexer.idField [.integer 1])⟩] (.ok ⟨[1]⟩) := by
    have one : batches Query.answerLimit [(1 : Int), 2] = [[1, 2]] := by
      simp [batches, Query.answerLimit]
    have read : (aggregationKeys (Memory.buckets LearningMaterialIndexer.idField [.integer 1])
        LearningMaterialIndexer.idField : Except EngineError (List Int)) = .ok [1] := rfl
    have kept : SkipSet.ofCandidates [(1 : Int), 2] [1] = ⟨[1]⟩ := by
      simp [SkipSet.ofCandidates, List.eraseDups_cons]
    change (shelf.catalog.skipSet LearningMaterialIndexer.idField [(1 : Int), 2] none).Yields _ _
    rw [Catalog.skipSet, one]
    refine Program.yields_ask_iff.mpr ⟨.ok _, [], rfl, ?_⟩
    simp only [Except.mapError, Program.done_ok_andThen, Program.bind_eq_andThen,
      Program.ofExcept, read, Catalog.foundIn, Program.pure_eq_done, List.append_nil, kept]
    exact .done _
  have built : (shelf.documentsOf [missing]).Yields
      [⟨.file "learning_material_texts/a/tissues.pdf", .ok none⟩] (.ok (sheet ++ [])) :=
    Program.yields_ask_iff.mpr ⟨.ok none, [], rfl, .done _⟩
  have written : (shelf.catalog.write (sheet ++ [])).Yields
      [⟨.engine (.bulk (sheet.map (.index LearningMaterialIndexer.indexName))),
        .ok ⟨3, true, []⟩⟩] (.ok false) :=
    Program.yields_ask_iff.mpr ⟨.ok ⟨3, true, []⟩, [], rfl, .done _⟩
  rw [perform_true, both, task, LearningMaterialIndexer.index_eq_andThen_write]
  refine Program.yields_andThen_ok_iff.mpr ⟨_, [_, _], [_], rfl, ?_, written⟩
  exact Program.yields_andThen_ok_iff.mpr ⟨_, [_], [_], rfl, found, built⟩

/-- The engine lists one of two materials: only the file of the other is read, only its documents
are sent, and that the engine refuses them is the result. -/
theorem conduct_of_partly :
    (both.perform true "1m" 1000).Yields partly (.ok false) ∧
      both.Conduct true shelf partly (.ok false) :=
  ⟨yields_partly, conduct_of_yields yields_partly⟩

end Sample

end IndexCall
end LearningIndex
