import LearningIndex.Proofs.Interplay
import LearningIndex.Proofs.Reconciliation.Conduct

/-!
# Executions of a run with its worker

Throughout an execution the run hands over no messages but those that it is to hand over, each of
them waits, is in hand or was handled, and an index holds what it held at first with the effects of
the messages that were handled, as long as those about it went well.  The messages do not matter to
each other, so nothing of this depends on the order in which they are taken.
-/

namespace LearningIndex

open Calendar (Instant)

/-- Services, a repository, and the settings of the indexers. -/
structure Installation (σ : Type) where
  backend : Backend σ
  snapshot : Snapshot
  keepAlive : String
  uploadLimit : Nat

namespace Installation

variable {σ : Type}

def handler (installation : Installation σ) : Handler :=
  ⟨.of installation.snapshot, .new true installation.keepAlive installation.uploadLimit⟩

/-- What a message does that is handled well. -/
def effect (installation : Installation σ) (message : IndexMessage) : Effect :=
  message.effect installation.snapshot (.new true installation.keepAlive installation.uploadLimit)
    installation.backend.files

/-- The files that a message needs can be read. -/
def Reads (installation : Installation σ) (message : IndexMessage) : Prop :=
  message.IsReadable installation.snapshot (.new true installation.keepAlive
    installation.uploadLimit) installation.backend.files

/-- The messages of a run that begins in a state. -/
def plan (installation : Installation σ) (stamp : Instant) (begun : σ) : List IndexMessage :=
  Reconciliation.plan installation.snapshot stamp
    (Reconciliation.inventory installation.backend begun)

end Installation

namespace Reconciliation

open Effect (Settled)
open Producer (Bystanding Handing Sparing logged)

variable {σ : Type} {installation : Installation σ} {stamp : Instant} {begun : σ}
variable {messages : List IndexMessage}
variable {ending : Except IndexingError ReconciliationReport → List IndexMessage → Prop}

/-- The messages about an index that were handled went well, as they all do if nothing fails. -/
def WentWell (backend : Backend σ) (index : String)
    (handled : List (IndexMessage × Except IndexingError Bool)) : Prop :=
  backend.NeverFails ∨ ∀ entry ∈ handled, entry.1.target = index → entry.2 = .ok true

/-- What the messages about an index do follows from the plan. -/
structure Regular (installation : Installation σ) (stamp : Instant) (begun : σ) (index : String) :
    Prop where
  distinct : installation.snapshot.DistinctIn index
  /-- No planned message passes over an entity in the state at the beginning. -/
  fresh : ∀ message ∈ installation.plan stamp begun, message.target = index →
    message.IsFresh installation.backend begun

/-- What some messages do to an index follows from them, in whatever order they are handled. -/
structure Orderless (installation : Installation σ) (messages : List IndexMessage) (begun : σ)
    (index : String) : Prop where
  distinct : installation.snapshot.DistinctIn index
  apart : messages.Pairwise (CompatibleIn index installation.effect)
  fresh : ∀ message ∈ messages, message.target = index →
    message.IsFresh installation.backend begun

theorem Regular.orderless {index : String} (regular : Regular installation stamp begun index) :
    Orderless installation (installation.plan stamp begun) begun index where
  distinct := regular.distinct
  apart := pairwise_compatible_plan regular.distinct stamp _
  fresh := regular.fresh

/-- What holds when the worker is done with a message that it took after others. -/
structure HandledAfter (installation : Installation σ) (messages : List IndexMessage) (begun : σ)
    (handled : List (IndexMessage × Except IndexingError Bool)) (message : IndexMessage)
    (outcome : Except IndexingError Bool) (after : σ) : Prop where
  succeeded : installation.backend.NeverFails →
    (∀ path, ∃ text, installation.backend.files path = .ok text) → outcome = .ok true
  read : outcome = .ok true → installation.Reads message
  settled : ∀ index, Orderless installation messages begun index →
    WentWell installation.backend index (handled ++ [(message, outcome)]) →
      Settled installation.backend index begun
        ((message :: handled.map (·.1)).map installation.effect) after

/-- What holds throughout an execution of a run that is to hand over some messages, and to end in
some way. -/
structure Coherent (installation : Installation σ) (messages : List IndexMessage)
    (ending : Except IndexingError ReconciliationReport → List IndexMessage → Prop) (begun : σ)
    (state : Interplay σ ReconciliationReport) : Prop where
  /-- The run hands over nothing else from now on. -/
  running : Program.Ensures (logged installation.backend.serve) (Bystanding installation.backend)
    (Handing installation.backend messages) (fun outcome after => ending outcome after.2)
    state.producer (state.world, state.dispatched)
  /-- The run has handed over nothing else. -/
  planned : state.dispatched <+: messages
  /-- No message was lost or taken twice. -/
  accounted : (state.handled.map (·.1) ++ (state.inHand.toList.map (·.1) ++ state.waiting)).Perm
    state.dispatched
  succeeded : installation.backend.NeverFails →
    (∀ path, ∃ text, installation.backend.files path = .ok text) →
      ∀ entry ∈ state.handled, entry.2 = .ok true
  /-- The files could be read that were needed by the messages that went well. -/
  read : ∀ entry ∈ state.handled, entry.2 = .ok true → installation.Reads entry.1
  /-- While the worker is free, the messages that were handled have had their effects. -/
  settled : state.inHand = none → ∀ index, Orderless installation messages begun index →
    WentWell installation.backend index state.handled →
      Settled installation.backend index begun
        ((state.handled.map (·.1)).map installation.effect) state.world
  /-- When the worker is done with the message in hand, that one has had its effect too. -/
  working : ∀ message task, state.inHand = some (message, task) →
    Program.Ensures installation.backend.serve installation.backend.SameDocuments
      (Catalog.Outside installation.backend message.target)
      (HandledAfter installation messages begun state.handled message) task state.world

theorem WentWell.of_append {backend : Backend σ} {index : String}
    {handled more : List (IndexMessage × Except IndexingError Bool)}
    (well : WentWell backend index (handled ++ more)) : WentWell backend index handled :=
  well.imp id fun all entry member => all entry (List.mem_append_left more member)

theorem coherent_start {world : σ} {producer : Producer ReconciliationReport}
    (same : installation.backend.SameDocuments begun world)
    (running : Program.Ensures (logged installation.backend.serve)
      (Bystanding installation.backend) (Handing installation.backend messages)
      (fun outcome after => ending outcome after.2) producer (world, [])) :
    Coherent installation messages ending begun (.start world producer) where
  running
  planned := List.nil_prefix
  accounted := .refl []
  succeeded := by
    rintro _ _ _ ⟨⟩
  read := by
    rintro _ ⟨⟩
  settled _ index _ _ :=
    (Settled.nil installation.backend index begun).of_documents_eq (same index)
  working := by
    rintro message task ⟨⟩

/-- A message that waits does not matter to those that were handled. -/
theorem Coherent.compatible {state : Interplay σ ReconciliationReport}
    (coherent : Coherent installation messages ending begun state) {message : IndexMessage}
    (waits : message ∈ state.waiting)
    (orderless : Orderless installation messages begun message.target) :
    ∀ other ∈ state.handled.map (·.1), Compatible installation.effect message other := by
  have pairs : (state.handled.map (·.1) ++ (state.inHand.toList.map (·.1) ++
      state.waiting)).Pairwise (CompatibleIn message.target installation.effect) :=
    (coherent.accounted.pairwise_iff fun apart => apart.symm).mpr
      (orderless.apart.sublist coherent.planned.sublist)
  intro other member
  exact ((List.pairwise_append.mp pairs).2.2 other member message
    (List.mem_append_right _ waits) (.inr rfl)).symm

/-- A message that is taken after others adds its effect to theirs. -/
theorem handling_ensures (exact : installation.backend.Exact) (fits : installation.snapshot.Fits)
    {handled : List (IndexMessage × Except IndexingError Bool)} {message : IndexMessage} {world : σ}
    (planned : message ∈ messages)
    (compatible : Orderless installation messages begun message.target →
      ∀ other ∈ handled.map (·.1), Compatible installation.effect message other)
    (settled : ∀ index, Orderless installation messages begun index →
      WentWell installation.backend index handled →
        Settled installation.backend index begun
          ((handled.map (·.1)).map installation.effect) world) :
    Program.Ensures installation.backend.serve installation.backend.SameDocuments
      (Catalog.Outside installation.backend message.target)
      (HandledAfter installation messages begun handled message)
      (installation.handler.handle message) world := by
  have reads := Handler.handle_ensures_isReadable exact fits installation.keepAlive
    installation.uploadLimit message world
  have ensured := ((Handler.handle_ensures exact fits installation.keepAlive
    installation.uploadLimit message world).and reads).and_unchanged
      (fun before after => ∀ index, index ≠ message.target →
        installation.backend.documents after index = installation.backend.documents before index)
      (fun first second index other => (second index other).trans (first index other))
      (fun same index _ => same index) (fun kept => kept.documents) (fun _ _ => rfl)
  refine ensured.mono ?_
  rintro outcome after ⟨⟨ends, read⟩, others⟩
  refine ⟨ends.succeeds, read, fun index orderless well => ?_⟩
  have before := settled index orderless well.of_append
  by_cases own : message.target = index
  · have apart := compatible (own ▸ orderless)
    have fresh : message.IsFresh installation.backend world := by
      refine isFresh_of_settled exact (fun query asked => ?_)
        (fun other member query asked => (apart other member).1.unanswered query asked)
        (orderless.fresh message planned own)
      rw [(IndexMessage.skipQuery?_about asked).1, own]
      exact before
    have applied := ends.applied ⟨own ▸ orderless.distinct, fresh⟩ (well.symm.imp
      (fun all => all (message, outcome) (by simp) own) id)
    refine before.cons applied fun effect member => ?_
    obtain ⟨other, earlier, rfl⟩ := List.mem_map.mp member
    exact (apart other earlier).independent
  · have apart : (installation.effect message).index ≠ index := by
      rwa [Installation.effect, index_effect]
    exact (before.cons_of_index_ne apart).of_documents_eq (others index (Ne.symm own))

/-- What the worker asks leaves the indexes alone that no message so far is about. -/
theorem Coherent.bystanding {state : Interplay σ ReconciliationReport}
    (coherent : Coherent installation messages ending begun state) {message : IndexMessage}
    {task : Task Bool}
    (taken : state.inHand = some (message, task)) {world : σ}
    (kept : Catalog.Outside installation.backend message.target state.world world) :
    Bystanding installation.backend (state.world, state.dispatched) (world, state.dispatched) where
  log := rfl
  steady := {
    contexts := kept.contexts
    documents := fun index untouched => by
      have sent : message ∈ state.dispatched := coherent.accounted.subset (by simp [taken])
      exact kept.documents index (untouched message sent).symm }

/-- Every step keeps an execution coherent. -/
theorem Coherent.step (exact : installation.backend.Exact) (fits : installation.snapshot.Fits)
    {before after : Interplay σ ReconciliationReport}
    (coherent : Coherent installation messages ending begun before)
    (step : Interplay.Step installation.backend.serve installation.handler.handle before after) :
    Coherent installation messages ending begun after := by
  cases step with
  | request world request next dispatched waiting inHand handled =>
      -- The producer only reads, so the message in hand is still handled as it would have been.
      obtain ⟨kept, running⟩ := coherent.running _ (Producer.bystanding_refl installation.backend _)
      exact {
        running
        planned := coherent.planned
        accounted := coherent.accounted
        succeeded := coherent.succeeded
        read := coherent.read
        settled := fun free index orderless well =>
          (coherent.settled free index orderless well).of_documents_eq (kept.documents index)
        working := fun message task taken =>
          (coherent.working message task taken).later Backend.SameDocuments.trans kept.documents }
  | dispatch world message next dispatched waiting inHand handled =>
      obtain ⟨kept, running⟩ := coherent.running _ (Producer.bystanding_refl installation.backend _)
      exact {
        running
        planned := kept.planned
        accounted := by
          have moved := coherent.accounted.append_right [message]
          simpa only [List.append_assoc] using moved
        succeeded := coherent.succeeded
        read := coherent.read
        settled := coherent.settled
        working := coherent.working }
  | take world producer dispatched earlier message later handled =>
      have waits : message ∈ earlier ++ message :: later := by simp
      have planned : message ∈ messages :=
        coherent.planned.subset (coherent.accounted.subset (by simp))
      have moved : (message :: (earlier ++ later)).Perm (earlier ++ message :: later) :=
        List.perm_middle.symm
      exact {
        running := coherent.running
        planned := coherent.planned
        accounted := (moved.append_left _).trans coherent.accounted
        succeeded := coherent.succeeded
        read := coherent.read
        settled := by
          rintro ⟨⟩
        working := by
          rintro _ _ ⟨⟩
          exact handling_ensures exact fits planned (coherent.compatible waits)
            (coherent.settled rfl) }
  | work world producer dispatched waiting message request next handled =>
      -- The worker writes to the index of a message that was handed over, and the producer has
      -- already listed that index.
      obtain ⟨kept, working⟩ :=
        coherent.working message _ rfl world (installation.backend.sameDocuments_refl world)
      exact {
        running := coherent.running.later Bystanding.trans (coherent.bystanding rfl kept)
        planned := coherent.planned
        accounted := coherent.accounted
        succeeded := coherent.succeeded
        read := coherent.read
        settled := by
          rintro ⟨⟩
        working := by
          rintro _ _ ⟨⟩
          exact working }
  | finish world producer dispatched waiting message outcome handled =>
      have done := coherent.working message _ rfl world
        (installation.backend.sameDocuments_refl world)
      -- The effects of the messages commute, so it does not matter which message ended last.
      have order : (message :: handled.map (·.1)).Perm
          ((handled ++ [(message, outcome)]).map (·.1)) := by
        rw [List.map_append]
        exact (List.perm_append_singleton message _).symm
      exact {
        running := coherent.running
        planned := coherent.planned
        accounted := by
          simpa using coherent.accounted
        succeeded := fun never readable entry member => by
          rcases List.mem_append.mp member with earlier | last
          · exact coherent.succeeded never readable entry earlier
          · rw [List.mem_singleton.mp last]
            exact done.succeeded never readable
        read := fun entry member => by
          rcases List.mem_append.mp member with earlier | last
          · exact coherent.read entry earlier
          · rw [List.mem_singleton.mp last]
            exact done.read
        settled := fun _ index orderless well =>
          (done.settled index orderless well).of_perm (order.map installation.effect)
        working := by
          rintro _ _ ⟨⟩ }

theorem Coherent.reaches (exact : installation.backend.Exact) (fits : installation.snapshot.Fits)
    {before after : Interplay σ ReconciliationReport}
    (coherent : Coherent installation messages ending begun before)
    (reaches :
      Interplay.Reaches installation.backend.serve installation.handler.handle before after) :
    Coherent installation messages ending begun after := by
  induction reaches with
  | refl => exact coherent
  | tail _ step ih => exact ih.step exact fits step

section Ended

variable {state : Interplay σ ReconciliationReport}
variable {outcome : Except IndexingError ReconciliationReport}

/-- A run ends in the way that it is to end. -/
theorem Coherent.ending_dispatched (coherent : Coherent installation messages ending begun state)
    (ends : state.Ends outcome) : ending outcome state.dispatched := by
  have running := coherent.running
  rw [ends.producer] at running
  exact running _ (Producer.bystanding_refl installation.backend _)

theorem Coherent.handled_perm (coherent : Coherent installation messages ending begun state)
    (ends : state.Ends outcome) : (state.handled.map (·.1)).Perm state.dispatched := by
  simpa [ends.inHand, ends.waiting] using coherent.accounted

theorem Coherent.settled_dispatched (coherent : Coherent installation messages ending begun state)
    (ends : state.Ends outcome) {index : String}
    (orderless : Orderless installation messages begun index)
    (well : WentWell installation.backend index state.handled) :
    Settled installation.backend index begun (state.dispatched.map installation.effect)
      state.world :=
  (coherent.settled ends.inHand index orderless well).of_perm
    ((coherent.handled_perm ends).map installation.effect)

end Ended

end Reconciliation

namespace Installation

open Effect (Settled)
open Reconciliation (Coherent Regular RunEnds WentWell coherent_start runIncremental_ensures)

variable {σ : Type}

/-- The stamp of a run that begins in a state. -/
def stamp (installation : Installation σ) (begun : σ) : Instant :=
  (installation.backend.serve .clock begun).1

/-- An execution of an incremental run and its worker that began in a state has come so far. -/
def Reaches (installation : Installation σ) (begun : σ)
    (state : Interplay σ ReconciliationReport) : Prop :=
  Interplay.Reaches installation.backend.serve installation.handler.handle
    (.start begun (Reconciliation.run installation.handler .incremental)) state

theorem run_eq (installation : Installation σ) :
    Reconciliation.run installation.handler .incremental =
      .ask (.service .clock) fun (stamp : Instant) =>
        Reconciliation.runIncremental installation.handler stamp := rfl

variable {installation : Installation σ} {begun : σ} {state : Interplay σ ReconciliationReport}

/-- An execution of a run that first asks for its stamp has not begun, or it is coherent. -/
theorem coherent_of_reaches (exact : installation.backend.Exact)
    (fits : installation.snapshot.Fits) {messages : List IndexMessage}
    {ending : Except IndexingError ReconciliationReport → List IndexMessage → Prop}
    {rest : Instant → Producer ReconciliationReport}
    (running : ∀ world, installation.backend.SameDocuments begun world →
      Program.Ensures (Producer.logged installation.backend.serve)
        (Producer.Bystanding installation.backend)
        (Producer.Handing installation.backend messages)
        (fun outcome after => ending outcome after.2) (rest (installation.stamp begun)) (world, []))
    (reached : Interplay.Reaches installation.backend.serve installation.handler.handle
      (.start begun (.ask (.service .clock) rest)) state) :
    state = .start begun (.ask (.service .clock) rest) ∨
      Coherent installation messages ending begun state := by
  rw [Interplay.Reaches, Relation.ReflTransGen.cases_head_iff] at reached
  rcases reached with rfl | ⟨next, first, later⟩
  · exact .inl rfl
  · refine .inr (Coherent.reaches exact fits ?_ later)
    rw [Interplay.start] at first
    generalize waits : ([] : List IndexMessage) = waiting at first
    cases first with
    | request =>
        subst waits
        have same := exact.sameDocuments .clock (fun _ => id) begun
        exact coherent_start same (running _ same)
    | take => simp at waits

theorem Reaches.coherent (exact : installation.backend.Exact) (fits : installation.snapshot.Fits)
    (reached : installation.Reaches begun state) :
    state = .start begun (Reconciliation.run installation.handler .incremental) ∨
      Coherent installation (installation.plan (installation.stamp begun) begun)
        (RunEnds installation.backend installation.snapshot (installation.stamp begun) begun) begun
        state :=
  coherent_of_reaches exact fits (fun _ same => runIncremental_ensures exact installation.snapshot
    installation.keepAlive installation.uploadLimit _
    ⟨List.prefix_rfl, fun index _ => same index⟩) reached

theorem Reaches.isPrefix_dispatched (exact : installation.backend.Exact)
    (fits : installation.snapshot.Fits) (reached : installation.Reaches begun state) :
    state.dispatched <+: installation.plan (installation.stamp begun) begun := by
  rcases reached.coherent exact fits with rfl | coherent
  · exact List.nil_prefix
  · exact coherent.planned

/-- What is known at the end of an execution. -/
structure Concluded (installation : Installation σ) (begun : σ)
    (state : Interplay σ ReconciliationReport)
    (outcome : Except IndexingError ReconciliationReport) : Prop where
  run : RunEnds installation.backend installation.snapshot (installation.stamp begun) begun outcome
    state.dispatched
  handled : (state.handled.map (·.1)).Perm state.dispatched
  succeeded : installation.backend.NeverFails →
    (∀ path, ∃ text, installation.backend.files path = .ok text) →
      ∀ entry ∈ state.handled, entry.2 = .ok true
  settled : ∀ index, Regular installation (installation.stamp begun) begun index →
    WentWell installation.backend index state.handled →
      Settled installation.backend index begun (state.dispatched.map installation.effect)
        state.world

theorem Reaches.concluded (exact : installation.backend.Exact) (fits : installation.snapshot.Fits)
    (reached : installation.Reaches begun state)
    {outcome : Except IndexingError ReconciliationReport} (ends : state.Ends outcome) :
    installation.Concluded begun state outcome := by
  rcases reached.coherent exact fits with rfl | coherent
  · have running := ends.producer
    rw [Interplay.start, run_eq] at running
    cases running
  · exact {
      run := coherent.ending_dispatched ends
      handled := coherent.handled_perm ends
      succeeded := coherent.succeeded
      settled := fun index regular well =>
        coherent.settled_dispatched ends regular.orderless well }

end Installation
end LearningIndex
