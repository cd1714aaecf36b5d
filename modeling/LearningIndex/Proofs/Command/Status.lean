import LearningIndex.Command.Run
import LearningIndex.Proofs.Document.Identity
import LearningIndex.Proofs.Reconciliation.Plan
import LearningIndex.Proofs.Worker.ShiftRun

/-!
# The status of a run tells what became of its messages

A command that indexes hands over its requests, and a reconciliation what it finds to be done.
However the worker and the producer of the messages take turns, the result of the command and the
exit status are those of the outcomes of all messages: success if the engine accepted everything, a
degraded run if it rejected some items and nothing failed, and an incomplete run if a message
failed.  Only a reconciliation whose driver fails tells of nothing else.
-/

namespace LearningIndex

open Calendar (Instant)
open Workplace (Event IsServed Shift handled outcomes)

/-! ## From outcomes to results -/

/-- A result is the one that the outcomes of messages call for: the value if the engine accepted all
items of every message, an incomplete run if some message failed, and a degraded run if none failed
but items of some were rejected.  The exit status tells the same. -/
structure IsJudged {β : Type} (outcomes : List (Except IndexingError Bool)) (value : β)
    (result : Except RunError β) : Prop where
  /-- A run succeeds with its value exactly if every message succeeded. -/
  returned : ∀ other, result = .ok other ↔
    other = value ∧ ∀ outcome ∈ outcomes, outcome = .ok true
  /-- A run is incomplete exactly if some message failed; all are counted and none is abandoned. -/
  incomplete : ∀ failed abandoned total,
    result = .error (.incomplete failed abandoned total) ↔
      (∃ outcome ∈ outcomes, outcome.isOk = false) ∧
        failed = outcomes.countP (fun outcome => !outcome.isOk) ∧ abandoned = 0 ∧
          total = outcomes.length
  /-- A run is degraded exactly if no message failed but items of some were rejected. -/
  degraded : ∀ rejected total, result = .error (.degraded rejected total) ↔
    (∀ outcome ∈ outcomes, outcome.isOk = true) ∧ .ok false ∈ outcomes ∧
      rejected = outcomes.countP Worker.isPartial ∧ total = outcomes.length
  /-- The exit status is zero exactly if every message succeeded. -/
  zero : (Run.outcomeOf (result.map fun _ => "")).exitCode = 0 ↔
    ∀ outcome ∈ outcomes, outcome = .ok true
  one : (Run.outcomeOf (result.map fun _ => "")).exitCode = 1 ↔
    ∃ outcome ∈ outcomes, outcome.isOk = false
  two : (Run.outcomeOf (result.map fun _ => "")).exitCode = 2 ↔
    (∀ outcome ∈ outcomes, outcome.isOk = true) ∧ .ok false ∈ outcomes

section Judging

variable {outcomes : List (Except IndexingError Bool)}

theorem eq_ok_true_of {outcome : Except IndexingError Bool} (ok : outcome.isOk = true)
    (whole : Worker.isPartial outcome = false) : outcome = .ok true := by
  rcases outcome with error | (_ | _)
  · cases ok
  · cases whole
  · rfl

theorem mem_ok_false_iff :
    .ok false ∈ outcomes ↔ 0 < outcomes.countP Worker.isPartial := by
  rw [List.countP_pos_iff]
  constructor
  · exact fun member => ⟨_, member, rfl⟩
  · rintro ⟨outcome, member, part⟩
    rcases outcome with error | (_ | _)
    · cases part
    · exact member
    · cases part

theorem exists_failed_iff :
    (∃ outcome ∈ outcomes, outcome.isOk = false) ↔
      0 < outcomes.countP fun outcome => !outcome.isOk := by
  simp [List.countP_pos_iff]

theorem forall_ok_iff :
    (∀ outcome ∈ outcomes, outcome.isOk = true) ↔
      outcomes.countP (fun outcome => !outcome.isOk) = 0 := by
  simp [List.countP_eq_zero]

theorem forall_ok_true_iff :
    (∀ outcome ∈ outcomes, outcome = .ok true) ↔
      outcomes.countP (fun outcome => !outcome.isOk) = 0 ∧
        outcomes.countP Worker.isPartial = 0 := by
  rw [← forall_ok_iff, List.countP_eq_zero]
  constructor
  · intro all
    refine ⟨fun outcome member => ?_, fun outcome member => ?_⟩ <;> rw [all outcome member]
    · rfl
    · exact Bool.false_ne_true
  · rintro ⟨ok, whole⟩ outcome member
    exact eq_ok_true_of (ok outcome member) (by simpa using whole outcome member)

/-- The result of a run in which so many of the messages failed and so many were degraded. -/
def verdict {β : Type} (failures rejections total : Nat) (value : β) : Except RunError β :=
  if 0 < failures then .error (.incomplete failures 0 total)
  else if 0 < rejections then .error (.degraded rejections total)
  else .ok value

section Verdict

variable {β : Type} {failures rejections total : Nat} {value : β}

theorem verdict_eq_ok_iff {other : β} :
    verdict failures rejections total value = .ok other ↔
      other = value ∧ failures = 0 ∧ rejections = 0 := by
  unfold verdict
  split_ifs with failed rejected
  · simp [Nat.pos_iff_ne_zero.mp failed]
  · simp [Nat.pos_iff_ne_zero.mp rejected]
  · simp [Nat.eq_zero_of_not_pos failed, Nat.eq_zero_of_not_pos rejected, eq_comm]

theorem verdict_eq_incomplete_iff {failed abandoned all : Nat} :
    verdict failures rejections total value = .error (.incomplete failed abandoned all) ↔
      0 < failures ∧ failed = failures ∧ abandoned = 0 ∧ all = total := by
  unfold verdict
  split_ifs with failed
  · simp [failed, eq_comm]
  · simp [failed]
  · simp [failed]

theorem verdict_eq_degraded_iff {rejected all : Nat} :
    verdict failures rejections total value = .error (.degraded rejected all) ↔
      failures = 0 ∧ 0 < rejections ∧ rejected = rejections ∧ all = total := by
  unfold verdict
  split_ifs with failed rejected
  · simp [Nat.pos_iff_ne_zero.mp failed]
  · simp [Nat.eq_zero_of_not_pos failed, rejected, eq_comm]
  · simp [rejected]

theorem exitCode_verdict :
    (Run.outcomeOf ((verdict failures rejections total value).map fun _ => "")).exitCode =
      if 0 < failures then 1 else if 0 < rejections then 2 else 0 := by
  unfold verdict
  split_ifs <;> rfl

end Verdict

/-- A worker that has counted every outcome and abandoned nothing is checked by these counts. -/
theorem checkSummary_tally {β : Type} (outcomes : List (Except IndexingError Bool)) (value : β) :
    ((Operation.checkSummary (Worker.tally outcomes)).map fun _ => value) =
      verdict (outcomes.countP fun outcome => !outcome.isOk) (outcomes.countP Worker.isPartial)
        outcomes.length value := by
  have total : (Worker.tally outcomes).total = outcomes.length := by
    rw [Worker.tally_eq, List.length_eq_countP_add_countP Except.isOk]
    simp [WorkerSummary.total]
  have counted := Worker.tally_eq outcomes
  generalize Worker.tally outcomes = summary at total counted ⊢
  rw [Operation.checkSummary, verdict, total, counted]
  simp only [WorkerSummary.isIncomplete, Nat.lt_irrefl, decide_false, Bool.or_false,
    decide_eq_true_eq]
  split_ifs <;> rfl

theorem isJudged_checkSummary {β : Type} (outcomes : List (Except IndexingError Bool)) (value : β) :
    IsJudged outcomes value
      ((Operation.checkSummary (Worker.tally outcomes)).map fun _ => value) := by
  rw [checkSummary_tally]
  constructor
  case returned =>
    intro other
    rw [verdict_eq_ok_iff, forall_ok_true_iff]
  case incomplete =>
    intro failed abandoned total
    rw [verdict_eq_incomplete_iff, exists_failed_iff]
  case degraded =>
    intro rejected total
    rw [verdict_eq_degraded_iff, forall_ok_iff, mem_ok_false_iff]
  case zero =>
    rw [exitCode_verdict, forall_ok_true_iff]
    split_ifs <;> grind
  case one =>
    rw [exitCode_verdict, exists_failed_iff]
    split_ifs <;> grind
  case two =>
    rw [exitCode_verdict, forall_ok_iff, mem_ok_false_iff]
    split_ifs <;> grind

end Judging

/-! ## From runs to outcomes -/

namespace Operation

variable {α σ : Type} (serve : (request : Service.Request) → σ → Service.Reply request × σ)

/-- What an operation makes of what a producer came to and of what its worker did. -/
def conclude (produced : Except IndexingError α) (summary : WorkerSummary) :
    Except RunError (α × WorkerSummary) :=
  match produced with
  | .error error => .error (.indexing error)
  | .ok result => (checkSummary summary).map fun _ => (result, summary)

theorem map_conclude {β : Type} (result : α) (summary : WorkerSummary)
    (take : α × WorkerSummary → β) :
    (conclude (.ok result) summary).map take =
      (checkSummary summary).map fun _ => take (result, summary) := by
  rw [conclude]
  cases checkSummary summary <;> rfl

theorem run_withWorker (deployment : Deployment) (producer : Producer α) {world after : σ}
    {produced : Except IndexingError α} {summary : WorkerSummary}
    (ran : (producer.withWorker Worker.defaultCapacity deployment.handler.handle [] {}).run serve
      world = (.ok (produced, summary), after)) :
    (withWorker deployment producer).run serve world = (conclude produced summary, after) := by
  have worked : (ofTask (producer.withWorker Worker.defaultCapacity
      deployment.handler.handle [] {})).run serve world = (.ok (produced, summary), after) := by
    rw [ofTask, Program.run_mapError, ran]
    rfl
  rw [withWorker, Program.bind_eq_andThen, Program.run_andThen_of_ok worked]
  cases produced with
  | error error => rfl
  | ok result =>
      cases checked : checkSummary summary <;>
        simp [Program.ofExcept, Except.mapError, conclude, checked, Program.run, Except.map]

end Operation

/-- What a command to index is to index: the named entities, or all where none is named. -/
inductive IndexWork where
  | learningMaterials (ids : List Int) (force : Bool)
  | courses (ids : List Int)
  | descriptors (ids : List String)

/-- The named ids, or all where none is named. -/
def namedOrAll {κ : Type} (ids all : List κ) : List κ :=
  if ids.isEmpty then all else ids

namespace IndexWork

def command : IndexWork → Command
  | learningMaterials ids force => .indexLearningMaterials ids force
  | courses ids => .indexCourses ids
  | descriptors ids => .indexMesh ids

def operation (deployment : Deployment) : IndexWork → Operation WorkerSummary
  | learningMaterials ids force => Operation.indexLearningMaterials deployment ids force
  | courses ids => Operation.indexCourses deployment ids
  | descriptors ids => Operation.indexMesh deployment ids

def count (snapshot : Snapshot) : IndexWork → Nat
  | learningMaterials ids _ => (namedOrAll ids snapshot.fileLearningMaterialIds).length
  | courses ids => (namedOrAll ids snapshot.courseIds).length
  | descriptors ids => (namedOrAll ids snapshot.meshDescriptorIds).length

/-- The requests that carry the ids. -/
def messages (snapshot : Snapshot) (stamp : Instant) : IndexWork → List IndexMessage
  | learningMaterials ids force =>
    (batches IndexMessage.maxIds (namedOrAll ids snapshot.fileLearningMaterialIds)).map
      (.indexLearningMaterials · force)
  | courses ids =>
    (batches IndexMessage.maxIds (namedOrAll ids snapshot.courseIds)).map (.indexCourses · stamp)
  | descriptors ids =>
    (batches IndexMessage.maxIds (namedOrAll ids snapshot.meshDescriptorIds)).map
      (.indexMeshDescriptors · stamp)

/-- There is one request for every fifty ids, and one for those that are left. -/
theorem length_messages (snapshot : Snapshot) (stamp : Instant) (work : IndexWork) :
    (work.messages snapshot stamp).length = (work.count snapshot + 49) / 50 := by
  cases work <;>
    simp only [messages, count, List.length_map,
      length_batches (show 0 < IndexMessage.maxIds by decide)] <;>
    rfl

section Running

variable {σ : Type} (serve : (request : Service.Request) → σ → Service.Reply request × σ)
variable (enabled : Bool) (keepAlive : String) (uploadLimit : Nat) (snapshot : Snapshot)

theorem idsOrAll_eq {κ : Type} (ids : List κ) (all : Snapshot → List κ) :
    Operation.idsOrAll (.new enabled keepAlive uploadLimit (.of snapshot)) ids all =
      .done (.ok (namedOrAll ids (all snapshot))) := by
  unfold Operation.idsOrAll namedOrAll
  split_ifs <;> rfl

theorem indexLearningMaterials_eq (ids : List Int) (force : Bool) (stamp : Instant) :
    Operation.indexLearningMaterials (.new enabled keepAlive uploadLimit (.of snapshot)) ids force =
      Operation.runMessages (.new enabled keepAlive uploadLimit (.of snapshot))
        ((learningMaterials ids force).messages snapshot stamp) := by
  unfold Operation.indexLearningMaterials IndexMessage.learningMaterials
  simp only [idsOrAll_eq, Program.bind_eq_andThen, Program.done_ok_andThen,
    IndexMessage.batched_eq]
  rfl

theorem indexCourses_eq (ids : List Int) :
    Operation.indexCourses (.new enabled keepAlive uploadLimit (.of snapshot)) ids =
      .ask .clock fun (stamp : Instant) =>
        Operation.runMessages (.new enabled keepAlive uploadLimit (.of snapshot))
          ((courses ids).messages snapshot stamp) := by
  unfold Operation.indexCourses IndexMessage.courses
  simp only [idsOrAll_eq, Program.bind_eq_andThen, Program.done_ok_andThen,
    IndexMessage.batched_eq]
  rfl

theorem indexMesh_eq (ids : List String) :
    Operation.indexMesh (.new enabled keepAlive uploadLimit (.of snapshot)) ids =
      .ask .clock fun (stamp : Instant) =>
        Operation.runMessages (.new enabled keepAlive uploadLimit (.of snapshot))
          ((descriptors ids).messages snapshot stamp) := by
  unfold Operation.indexMesh IndexMessage.meshDescriptors
  simp only [idsOrAll_eq, Program.bind_eq_andThen, Program.done_ok_andThen,
    IndexMessage.batched_eq]
  rfl

theorem exists_run_operation (work : IndexWork) (world : σ) :
    ∃ stamp begun, (work.operation (.new enabled keepAlive uploadLimit (.of snapshot))).run serve
        world =
      (Operation.runMessages (.new enabled keepAlive uploadLimit (.of snapshot))
        (work.messages snapshot stamp)).run serve begun := by
  cases work with
  | learningMaterials ids force =>
      exact ⟨.epoch, world, by rw [operation, indexLearningMaterials_eq]⟩
  | courses ids =>
      rw [operation, indexCourses_eq]
      exact ⟨_, _, rfl⟩
  | descriptors ids =>
      rw [operation, indexMesh_eq]
      exact ⟨_, _, rfl⟩

theorem perform_command (deployment : Deployment) (work : IndexWork) :
    Run.perform deployment work.command =
      (work.operation deployment).andThen fun _ => .done (.ok "") := by
  cases work <;> rfl

end Running

end IndexWork

section Shifts

variable {α : Type} {size : Nat} {handle : IndexMessage → Task Bool}
variable {log : List (Event IndexMessage)} {trace : List (Exchange dispatching)}
variable {place : Workplace IndexMessage} {summary : WorkerSummary}

theorem Producer.dispatchAll_granted {messages : List IndexMessage}
    {produced : Except IndexingError Unit} (run : (dispatchAll messages).Yields trace produced)
    (granted : ∀ exchange ∈ trace, IsGranted exchange) :
    produced = .ok () ∧ trace.filterMap accepted? = messages := by
  induction messages generalizing trace with
  | nil =>
      obtain ⟨rfl, rfl⟩ := Program.yields_done_iff.mp run
      exact ⟨rfl, rfl⟩
  | cons message rest ih =>
      obtain ⟨reply, after, rfl, later⟩ := Program.yields_ask_iff.mp run
      obtain ⟨first, others⟩ := List.forall_mem_cons.mp granted
      obtain rfl : reply = .ok () := first
      obtain ⟨succeeded, dispatched⟩ := ih later others
      exact ⟨succeeded, congrArg (message :: ·) dispatched⟩

/-- A producer that succeeds leaves the result to the outcomes of its messages. -/
theorem Workplace.Shift.judged {producer : Producer α} {result : α}
    (shift : Shift size handle producer log trace (.ended (.ok result)) place)
    (gone : place.phase = .gone summary) :
    (handled log).map Prod.fst = trace.filterMap Producer.accepted? ∧ summary.abandoned = 0 ∧
      IsJudged (outcomes log) result ((Operation.conclude (.ok result) summary).map Prod.fst) ∧
        IsJudged (outcomes log) summary
          ((Operation.conclude (.ok result) summary).map Prod.snd) := by
  obtain ⟨once, rfl⟩ := shift.handles_all gone
  have left : (Worker.tally (outcomes log)).abandoned = 0 := by
    rw [Worker.tally_eq]
  refine ⟨once, left, ?_, ?_⟩
  · rw [Operation.map_conclude]
    exact isJudged_checkSummary (outcomes log) result
  · rw [Operation.map_conclude]
    exact isJudged_checkSummary (outcomes log) _

end Shifts

section Statuses

variable {α σ : Type} (serve : (request : Service.Request) → σ → Service.Reply request × σ)

/-- An operation runs as a shift of its producer with a worker, whatever it takes of the two
results. -/
theorem Operation.exists_shift (deployment : Deployment) (producer : Producer α) (world : σ) :
    ∃ log trace produced place summary,
      Shift Worker.defaultCapacity deployment.handler.handle producer log trace (.ended produced)
          place ∧
        place.phase = .gone summary ∧
        (∀ entry ∈ handled log, IsServed serve deployment.handler.handle entry) ∧
        ∀ (β : Type) (take : α × WorkerSummary → β),
          (((Operation.withWorker deployment producer).andThen fun both =>
            .done (.ok (take both))).run serve world).1 =
              (Operation.conclude produced summary).map take := by
  obtain ⟨produced, summary, after, log, trace, place, ran, shift, gone, served⟩ :=
    Workplace.exists_shift_withWorker serve Worker.defaultCapacity deployment.handler.handle
      producer world
  refine ⟨log, trace, produced, place, summary, shift, gone, served, fun β take => ?_⟩
  rw [Program.run_andThen_map _ take, Operation.run_withWorker _ _ _ ran]

variable (enabled : Bool) (keepAlive : String) (uploadLimit : Nat) (snapshot : Snapshot)

theorem exists_shift_index (world : σ) (work : IndexWork) :
    ∃ stamp log trace produced place summary,
      Shift Worker.defaultCapacity
          (Deployment.new enabled keepAlive uploadLimit (.of snapshot)).handler.handle
          (Producer.dispatchAll (work.messages snapshot stamp)) log trace (.ended produced) place ∧
        place.phase = .gone summary ∧
        (∀ entry ∈ handled log, IsServed serve
          (Deployment.new enabled keepAlive uploadLimit (.of snapshot)).handler.handle entry) ∧
        ((work.operation (.new enabled keepAlive uploadLimit (.of snapshot))).run serve world).1 =
          (Operation.conclude produced summary).map Prod.snd ∧
        ((Run.perform (.new enabled keepAlive uploadLimit (.of snapshot)) work.command).run serve
          world).1 = (Operation.conclude produced summary).map fun _ => "" := by
  obtain ⟨stamp, begun, came⟩ :=
    work.exists_run_operation serve enabled keepAlive uploadLimit snapshot world
  obtain ⟨log, trace, produced, place, summary, shift, gone, served, concluded⟩ :=
    Operation.exists_shift serve (.new enabled keepAlive uploadLimit (.of snapshot))
      (Producer.dispatchAll (work.messages snapshot stamp)) begun
  have operated : ((work.operation (.new enabled keepAlive uploadLimit (.of snapshot))).run serve
      world).1 = (Operation.conclude produced summary).map Prod.snd := by
    rw [came]
    exact concluded _ Prod.snd
  refine ⟨stamp, log, trace, produced, place, summary, shift, gone, served, operated, ?_⟩
  rw [IndexWork.perform_command, Program.run_andThen_map _ fun _ => "", operated]
  cases Operation.conclude produced summary <;> rfl

theorem exists_shift_reconcile (world : σ) (mode : ReconciliationMode) (deployment : Deployment) :
    ∃ log trace produced place summary,
      Shift Worker.defaultCapacity deployment.handler.handle
          (Reconciliation.run deployment.handler mode) log trace (.ended produced) place ∧
        place.phase = .gone summary ∧
        (∀ entry ∈ handled log, IsServed serve deployment.handler.handle entry) ∧
        ((Operation.reconcile deployment mode).run serve world).1 =
          (Operation.conclude produced summary).map Prod.fst ∧
        ((Run.perform deployment (.reconcile mode)).run serve world).1 =
          (Operation.conclude produced summary).map fun _ => "" := by
  obtain ⟨log, trace, produced, place, summary, shift, gone, served, concluded⟩ :=
    Operation.exists_shift serve deployment (Reconciliation.run deployment.handler mode) world
  have operated : ((Operation.reconcile deployment mode).run serve world).1 =
      (Operation.conclude produced summary).map Prod.fst := concluded _ Prod.fst
  refine ⟨log, trace, produced, place, summary, shift, gone, served, operated, ?_⟩
  rw [Run.perform]
  simp only [Program.bind_eq_andThen, Program.pure_eq_done]
  rw [Program.run_andThen_map _ fun _ => "", operated]
  cases Operation.conclude produced summary <;> rfl

end Statuses

/-- In every shift of the requests of a command to index with a worker, the worker handles each
request, of which there is one for every fifty ids begun, and abandons none; the result and the exit
status are those of the outcomes.  In every shift of a reconciliation with a worker the error of
the driver is the result, and where the driver succeeds, every message that it handed over is
handled and the result and the exit status are those of the outcomes.  The commands run as such
shifts, whatever the engine and the files answer, and there the outcomes are what these answers
lead to. -/
theorem status_of_outcomes (enabled : Bool) (keepAlive : String) (uploadLimit : Nat)
    (snapshot : Snapshot) :
    let deployment := Deployment.new enabled keepAlive uploadLimit (.of snapshot)
    (∀ (work : IndexWork) stamp size log trace produced place summary,
      Shift size deployment.handler.handle
        (Producer.dispatchAll (work.messages snapshot stamp)) log trace (.ended produced) place →
      place.phase = .gone summary →
        (∀ entry ∈ handled log, ∃ calls,
          (deployment.handler.handle entry.1).Yields calls entry.2) ∧
        (handled log).map Prod.fst = work.messages snapshot stamp ∧
        (handled log).length = (work.count snapshot + 49) / 50 ∧ summary.abandoned = 0 ∧
        IsJudged (outcomes log) summary ((Operation.conclude produced summary).map Prod.snd)) ∧
    (∀ mode size log trace produced place summary,
      Shift size deployment.handler.handle (Reconciliation.run deployment.handler mode) log trace
        (.ended produced) place →
      place.phase = .gone summary →
        (Reconciliation.run deployment.handler mode).Yields trace produced ∧
        (∀ entry ∈ handled log, ∃ calls,
          (deployment.handler.handle entry.1).Yields calls entry.2) ∧
        (∀ error, produced = .error error →
          Operation.conclude produced summary = .error (.indexing error) ∧
          (Run.outcomeOf ((Operation.conclude produced summary).map fun _ => "")).exitCode = 1) ∧
        ∀ report, produced = .ok report →
          (handled log).map Prod.fst = trace.filterMap Producer.accepted? ∧
          summary.abandoned = 0 ∧
          IsJudged (outcomes log) report ((Operation.conclude produced summary).map Prod.fst)) ∧
    ∀ (σ : Type) (serve : (request : Service.Request) → σ → Service.Reply request × σ) (world : σ),
      (∀ work : IndexWork, ∃ stamp log trace produced place summary,
        Shift Worker.defaultCapacity deployment.handler.handle
          (Producer.dispatchAll (work.messages snapshot stamp)) log trace (.ended produced) place ∧
        place.phase = .gone summary ∧
        (∀ entry ∈ handled log, IsServed serve deployment.handler.handle entry) ∧
        ((work.operation deployment).run serve world).1 =
          (Operation.conclude produced summary).map Prod.snd ∧
        ((Run.perform deployment work.command).run serve world).1 =
          (Operation.conclude produced summary).map fun _ => "") ∧
      ∀ mode, ∃ log trace produced place summary,
        Shift Worker.defaultCapacity deployment.handler.handle
          (Reconciliation.run deployment.handler mode) log trace (.ended produced) place ∧
        place.phase = .gone summary ∧
        (∀ entry ∈ handled log, IsServed serve deployment.handler.handle entry) ∧
        ((Operation.reconcile deployment mode).run serve world).1 =
          (Operation.conclude produced summary).map Prod.fst ∧
        ((Run.perform deployment (.reconcile mode)).run serve world).1 =
          (Operation.conclude produced summary).map fun _ => "" := by
  intro deployment
  refine ⟨fun work stamp size log trace produced place summary shift gone => ?_,
    fun mode size log trace produced place summary shift gone => ?_,
    fun σ serve world => ⟨fun work => ?_, fun mode => ?_⟩⟩
  · obtain ⟨rfl, dispatched⟩ := Producer.dispatchAll_granted shift.follows shift.granted
    obtain ⟨once, unabandoned, -, judged⟩ := shift.judged gone
    rw [dispatched] at once
    refine ⟨shift.yields_of_mem_handled, once, ?_, unabandoned, judged⟩
    rw [← work.length_messages snapshot stamp, ← once, List.length_map]
  · refine ⟨shift.follows, shift.yields_of_mem_handled, ?_, ?_⟩
    · rintro error rfl
      exact ⟨rfl, rfl⟩
    · rintro report rfl
      obtain ⟨once, unabandoned, judged, -⟩ := shift.judged gone
      exact ⟨once, unabandoned, judged⟩
  · exact exists_shift_index serve enabled keepAlive uploadLimit snapshot world work
  · exact exists_shift_reconcile serve world mode deployment

namespace Deployment.Sample

/-- Two materials of which the files have no text. -/
def tissues : LearningMaterial := ⟨51, "Tissues", none, none, some "tissues"⟩
def organs : LearningMaterial := ⟨101, "Organs", none, none, some "organs"⟩

/-- The two materials, and one more. -/
def library : Snapshot where
  learningMaterials := [⟨1, "Cells", none, none, some "cells"⟩, tissues, organs]

def sheet (material : LearningMaterial) : Document :=
  LearningMaterialIndexer.chunkDocument material 0 []

/-- Services that cannot read the file of one material and reject the document of another. -/
def flaky : (request : Service.Request) → Unit → Service.Reply request × Unit
  | .engine (.bulk operations), state =>
    (.ok ⟨1, operations.any fun operation => operation.action.id = (sheet tissues).id, []⟩, state)
  | .engine _, state => (.error .unavailable, state)
  | .file path, state =>
    (if path = "learning_material_texts/cells" then .error (.content "Unreadable") else .ok none,
      state)
  | .clock, state => (.epoch, state)

def numbers : List Int :=
  (List.range 101).map fun number => number + 1

def deployment : Deployment :=
  .new true "5m" 1000 (.of library)

theorem messages_numbers (stamp : Instant) :
    (IndexWork.learningMaterials numbers true).messages library stamp =
      [.indexLearningMaterials (numbers.take 50) true,
        .indexLearningMaterials ((numbers.drop 50).take 50) true,
        .indexLearningMaterials (numbers.drop 100) true] := by
  have cut : batches IndexMessage.maxIds numbers =
      [numbers.take 50, (numbers.drop 50).take 50, numbers.drop 100] := by
    simp only [IndexMessage.maxIds]
    rw [batches_eq_cons (by decide) (by decide), batches_eq_cons (by decide) (by decide),
      batches_eq_cons (by decide) (by decide)]
    simp [numbers]
  exact congrArg (List.map fun ids => IndexMessage.indexLearningMaterials ids true) cut

theorem run_numbers :
    ((IndexWork.learningMaterials numbers true).messages library .epoch).map (fun message =>
      ((deployment.handler.handle message).run flaky ()).1) =
        [.error (.content "Unreadable"), .ok false, .ok true] := by
  have second : ((deployment.handler.handle
      (.indexLearningMaterials ((numbers.drop 50).take 50) true)).run flaky ()).1 =
        .ok (!([sheet tissues].any fun document => document.id = (sheet tissues).id)) := rfl
  have third : ((deployment.handler.handle
      (.indexLearningMaterials (numbers.drop 100) true)).run flaky ()).1 =
        .ok (!([sheet organs].any fun document => document.id = (sheet tissues).id)) := rfl
  have other : (sheet organs).id ≠ (sheet tissues).id := by
    simp [sheet, tissues, organs, LearningMaterialIndexer.documentId_inj]
  rw [messages_numbers, List.map_cons, List.map_cons, List.map_singleton, second, third,
    List.any_cons, List.any_cons, List.any_nil, decide_eq_false other, decide_eq_true rfl]
  rfl

/-- Of the three requests for a hundred and one materials the first fails, the engine rejects items
of the second and accepts the third, so that the run is incomplete. -/
theorem status_of_hundred_and_one :
    ∃ log trace produced place summary,
      Shift Worker.defaultCapacity deployment.handler.handle
        (Producer.dispatchAll ((IndexWork.learningMaterials numbers true).messages library .epoch))
          log trace (.ended produced) place ∧
      place.phase = .gone summary ∧
      outcomes log = [.error (.content "Unreadable"), .ok false, .ok true] ∧
      IsJudged (outcomes log) summary (.error (.incomplete 1 0 3)) ∧
      ((Run.perform deployment (.indexLearningMaterials numbers true)).run flaky ()).1 =
        .error (.incomplete 1 0 3) := by
  obtain ⟨every, -, runs⟩ := status_of_outcomes true "5m" 1000 library
  obtain ⟨stamp, log, trace, produced, place, summary, shift, gone, served, -, performed⟩ :=
    (runs Unit flaky ()).1 (.learningMaterials numbers true)
  obtain ⟨-, once, -, -, judged⟩ := every (.learningMaterials numbers true) stamp _ log trace
    produced place summary shift gone
  have answered : outcomes log = ((handled log).map Prod.fst).map fun message =>
      ((deployment.handler.handle message).run flaky ()).1 := by
    rw [outcomes, List.map_map]
    refine List.map_congr_left fun entry member => ?_
    obtain ⟨⟨⟩, same⟩ := served entry member
    exact same.symm
  rw [once] at answered
  have came : outcomes log = [.error (.content "Unreadable"), .ok false, .ok true] :=
    answered.trans run_numbers
  have incomplete : (Operation.conclude produced summary).map Prod.snd =
      .error (.incomplete 1 0 3) := by
    refine (judged.incomplete 1 0 3).mpr ?_
    rw [came]
    exact ⟨⟨_, List.mem_cons_self, rfl⟩, rfl, rfl, rfl⟩
  rw [incomplete] at judged
  refine ⟨log, trace, produced, place, summary, shift, gone, came, judged, performed.trans ?_⟩
  cases concluded : Operation.conclude produced summary with
  | error error => simpa [concluded, Except.map] using incomplete
  | ok value => simp [concluded, Except.map] at incomplete

end Deployment.Sample

end LearningIndex
