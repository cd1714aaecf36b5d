import LearningIndex.Proofs.Program.Trace

/-!
# Runs of programs

A server that keeps a state determines a run: what is asked, what is answered and how the program
ends.  The transcript of the run is one of the traces of the program.
-/

namespace LearningIndex

namespace Program

variable {interface : Interface} {ε ε' α β σ : Type}
variable {serve : (question : interface.Request) → σ → interface.Reply question × σ}

/-- What a program asks in a run, in order, with the replies. -/
def transcript (serve : (question : interface.Request) → σ → interface.Reply question × σ) :
    Program interface ε α → σ → List (Exchange interface)
  | .done _, _ => []
  | .ask question next, state =>
    ⟨question, (serve question state).1⟩ ::
      transcript serve (next (serve question state).1) (serve question state).2

theorem yields_transcript
    (serve : (question : interface.Request) → σ → interface.Reply question × σ)
    (program : Program interface ε α) (state : σ) :
    program.Yields (program.transcript serve state) (program.run serve state).1 := by
  induction program generalizing state with
  | done outcome => exact .done outcome
  | ask question next ih => exact .ask _ (ih _ _)

theorem run_andThen_of_ok {program : Program interface ε α} {state after : σ} {result : α}
    (ran : program.run serve state = (.ok result, after)) (next : α → Program interface ε β) :
    (program.andThen next).run serve state = (next result).run serve after := by
  induction program generalizing state with
  | done outcome =>
      obtain ⟨rfl, rfl⟩ := Prod.mk.inj ran
      rfl
  | ask question resume ih => exact ih _ ran

theorem run_andThen_of_error {program : Program interface ε α} {state after : σ} {error : ε}
    (ran : program.run serve state = (.error error, after)) (next : α → Program interface ε β) :
    (program.andThen next).run serve state = (.error error, after) := by
  induction program generalizing state with
  | done outcome =>
      obtain ⟨rfl, rfl⟩ := Prod.mk.inj ran
      rfl
  | ask question resume ih => exact ih _ ran

theorem transcript_andThen_of_ok {program : Program interface ε α} {state after : σ} {result : α}
    (ran : program.run serve state = (.ok result, after)) (next : α → Program interface ε β) :
    (program.andThen next).transcript serve state =
      program.transcript serve state ++ (next result).transcript serve after := by
  induction program generalizing state with
  | done outcome =>
      obtain ⟨rfl, rfl⟩ := Prod.mk.inj ran
      rfl
  | ask question resume ih => exact congrArg _ (ih _ ran)

theorem transcript_andThen_of_error {program : Program interface ε α} {state after : σ} {error : ε}
    (ran : program.run serve state = (.error error, after)) (next : α → Program interface ε β) :
    (program.andThen next).transcript serve state = program.transcript serve state := by
  induction program generalizing state with
  | done outcome =>
      obtain ⟨rfl, rfl⟩ := Prod.mk.inj ran
      rfl
  | ask question resume ih => exact congrArg _ (ih _ ran)

/-- What every request of a run preserves, whenever it is made, the run preserves. -/
theorem run_preserves {invariant : σ → Prop} {program : Program interface ε α} {state : σ}
    (kept : ∀ exchange ∈ program.transcript serve state, ∀ moment, invariant moment →
      invariant (serve exchange.request moment).2)
    (holds : invariant state) : invariant (program.run serve state).2 := by
  induction program generalizing state with
  | done outcome => exact holds
  | ask question next ih =>
      obtain ⟨first, later⟩ := List.forall_mem_cons.mp kept
      exact ih _ later (first state holds)

theorem run_attempt_andThen
    (serve : (question : interface.Request) → σ → interface.Reply question × σ)
    (program : Program interface ε α) (next : Except ε α → Program interface ε' β) (state : σ) :
    (program.attempt.andThen next).run serve state =
      (next (program.run serve state).1).run serve (program.run serve state).2 := by
  induction program generalizing state with
  | done result => rfl
  | ask question resume ih => exact ih _ _

theorem run_andThen_map
    (serve : (question : interface.Request) → σ → interface.Reply question × σ) (change : α → β)
    (program : Program interface ε α) (state : σ) :
    (program.andThen fun result => .done (.ok (change result))).run serve state =
      ((program.run serve state).1.map change, (program.run serve state).2) := by
  induction program generalizing state with
  | done outcome => cases outcome <;> rfl
  | ask question resume ih => exact ih _ _

theorem run_mapError
    (serve : (question : interface.Request) → σ → interface.Reply question × σ) (change : ε → ε')
    (program : Program interface ε α) (state : σ) :
    (program.mapError change).run serve state =
      ((program.run serve state).1.mapError change, (program.run serve state).2) := by
  induction program generalizing state with
  | done outcome => cases outcome <;> rfl
  | ask question resume ih => exact ih _ _

end Program

/-- The operations of a bulk request. -/
def Service.Request.bulk? : Service.Request → Option (List BulkOperation)
  | .engine (.bulk operations) => some operations
  | _ => none

namespace Task

variable {α σ : Type}

/-- The bulk requests of a run, in order. -/
def bulks (serve : (request : Service.Request) → σ → Service.Reply request × σ) (task : Task α)
    (state : σ) : List (List BulkOperation) :=
  (task.transcript serve state).filterMap (·.request.bulk?)

end Task
end LearningIndex
