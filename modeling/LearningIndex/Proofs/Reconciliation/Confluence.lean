import LearningIndex.Proofs.Reconciliation.Succession

/-!
# All executions of a run agree

Over an engine that never fails, a run that finds no course ingested in the second of its stamp
hands over the same messages however its worker interferes, and the messages lead to the same
documents in whatever order they are handled.
-/

namespace LearningIndex
namespace Installation

open Reconciliation (IngestedBefore isFresh_of_mem_plan)

variable {σ : Type}

/-- The executions that began in a state agree on how the run ends, on the messages and on the
documents. -/
structure Agreement (installation : Installation σ) (begun : σ)
    (outcome : Except IndexingError ReconciliationReport) (messages : List IndexMessage)
    (contents : String → String → Option Fields) : Prop where
  /-- An execution that has come so far has handed over a part of the messages, and it can be
  brought to its end. -/
  underway : ∀ state, installation.Reaches begun state → state.dispatched <+: messages ∧
    ∃ last, Interplay.Reaches installation.backend.serve installation.handler.handle state last ∧
      last.Ends outcome
  /-- There is an execution for every order of the messages. -/
  orders : ∀ order : List IndexMessage, order.Perm messages →
    ∃ last, installation.Reaches begun last ∧ last.Ends outcome ∧ last.handled.map (·.1) = order
  /-- At the end of every execution the messages and the documents are the same. -/
  ended : ∀ last ending, installation.Reaches begun last → last.Ends ending →
    ending = outcome ∧ last.dispatched = messages ∧
      ∀ index id, installation.backend.lasting last.world index id = contents index id

/-- Two executions that have ended differ at most in the times of ingestion. -/
theorem Concluded.agree {installation : Installation σ} (never : installation.backend.NeverFails)
    (distinct : installation.snapshot.Distinct) (fits : installation.snapshot.Fits) {begun : σ}
    (before : IngestedBefore installation.backend begun (installation.stamp begun))
    {first second : Interplay σ ReconciliationReport}
    {outcome outcome' : Except IndexingError ReconciliationReport}
    (concluded : installation.Concluded begun first outcome)
    (concluded' : installation.Concluded begun second outcome') :
    outcome = outcome' ∧ first.dispatched = second.dispatched ∧
      ∀ index id, installation.backend.lasting first.world index id =
        installation.backend.lasting second.world index id := by
  obtain ⟨sameOutcome, sameMessages⟩ := concluded.run.unique never concluded'.run
  refine ⟨sameOutcome, sameMessages, fun index id => ?_⟩
  have regular : Reconciliation.Regular installation (installation.stamp begun) begun index :=
    ⟨distinct.within index, fun _ planned _ => isFresh_of_mem_plan fits (fun _ => before) planned⟩
  have settled := concluded.settled index regular (.inl never)
  rw [sameMessages] at settled
  exact settled.lasting_eq (concluded'.settled index regular (.inl never)) id

/-- However the run and its worker take turns, and in whatever order the messages are handled, the
same messages are handed over and the same documents come of them, up to the times of ingestion. -/
theorem exists_agreement {installation : Installation σ} (exact : installation.backend.Exact)
    (never : installation.backend.NeverFails) (distinct : installation.snapshot.Distinct)
    (fits : installation.snapshot.Fits) {begun : σ}
    (before : IngestedBefore installation.backend begun (installation.stamp begun)) :
    ∃ outcome messages contents, installation.Agreement begun outcome messages contents := by
  obtain ⟨outcome, messages, ordered⟩ := Interplay.exists_reaches_end_in_order
    installation.backend.serve installation.handler.handle
    (Reconciliation.run installation.handler .incremental) begun
  obtain ⟨model, reached, ends, rfl, _⟩ := ordered messages (.refl messages)
  have modelled : installation.Concluded begun model outcome :=
    Reaches.concluded exact fits reached ends
  have agree : ∀ last ending, installation.Reaches begun last → last.Ends ending →
      ending = outcome ∧ last.dispatched = model.dispatched ∧
        ∀ index id, installation.backend.lasting last.world index id =
          installation.backend.lasting model.world index id :=
    fun last ending reached' ends' =>
      (Reaches.concluded exact fits reached' ends').agree never distinct fits before modelled
  refine ⟨outcome, model.dispatched, installation.backend.lasting model.world, ?_, ?_, agree⟩
  · intro state reached'
    obtain ⟨last, ending, later, ends'⟩ := Interplay.exists_reaches_end
      installation.backend.serve installation.handler.handle state
    obtain ⟨rfl, same, _⟩ := agree last ending (reached'.trans later) ends'
    exact ⟨same ▸ later.isPrefix_dispatched, last, later, ends'⟩
  · intro order same
    obtain ⟨last, reached', ends', _, listed⟩ := ordered order same
    exact ⟨last, reached', ends', listed⟩

/-- All executions of a run over the later sample agree. -/
theorem Sample.exists_agreement_of_begun :
    ∃ outcome messages contents,
      (system current).Agreement begun outcome messages contents :=
  exists_agreement (Memory.exact_backend _) (Memory.neverFails_backend _) distinct_current
    fits_current (ingestedBefore_begun current)

end Installation
end LearningIndex
