import LearningIndex.Indexing.Service

/-!
# Programs among others

A program shares the state of its server with others.  Between two of its requests the others may
move the state as a relation `rely` allows, and each of its own requests must move it as a relation
`guarantee` allows.  A statement of this kind composes along `andThen`, and it stays true while the
others move.
-/

namespace LearningIndex
namespace Program

variable {interface : Interface} {ε α β σ : Type}

section Ensures

variable (serve : (request : interface.Request) → σ → interface.Reply request × σ)
variable (rely guarantee : σ → σ → Prop)

/-- Among others that keep to `rely`, the program keeps to `guarantee` and ends with an outcome and
a state as `ending` says, and the others may move once more before that is looked at. -/
def Ensures (ending : Except ε α → σ → Prop) : Program interface ε α → σ → Prop
  | .done outcome, state => ∀ later, rely state later → ending outcome later
  | .ask request next, state => ∀ later, rely state later →
      guarantee later (serve request later).2 ∧
        Ensures ending (next (serve request later).1) (serve request later).2

end Ensures

namespace Ensures

variable {serve : (request : interface.Request) → σ → interface.Reply request × σ}
variable {rely guarantee : σ → σ → Prop}

theorem later (trans : ∀ {a b c}, rely a b → rely b c → rely a c)
    {ending : Except ε α → σ → Prop} {program : Program interface ε α} {state moved : σ}
    (ensured : Ensures serve rely guarantee ending program state) (move : rely state moved) :
    Ensures serve rely guarantee ending program moved := by
  cases program with
  | done outcome => exact fun after next => ensured after (trans move next)
  | ask request next => exact fun after step => ensured after (trans move step)

theorem mono {ending weaker : Except ε α → σ → Prop} {program : Program interface ε α} {state : σ}
    (ensured : Ensures serve rely guarantee ending program state)
    (weaken : ∀ outcome after, ending outcome after → weaker outcome after) :
    Ensures serve rely guarantee weaker program state := by
  induction program generalizing state with
  | done outcome => exact fun after move => weaken _ _ (ensured after move)
  | ask request next ih =>
      intro after move
      obtain ⟨kept, rest⟩ := ensured after move
      exact ⟨kept, ih _ rest⟩

theorem and {first second : Except ε α → σ → Prop} {program : Program interface ε α} {state : σ}
    (ensured : Ensures serve rely guarantee first program state)
    (ensured' : Ensures serve rely guarantee second program state) :
    Ensures serve rely guarantee (fun outcome after => first outcome after ∧ second outcome after)
      program state := by
  induction program generalizing state with
  | done outcome => exact fun after move => ⟨ensured after move, ensured' after move⟩
  | ask request next ih =>
      intro after move
      obtain ⟨kept, rest⟩ := ensured after move
      exact ⟨kept, ih _ rest (ensured' after move).2⟩

/-- A program in sequence: if the first part succeeds the second one must ensure the ending, and if
it fails its error is the outcome. -/
theorem andThen (refl : ∀ state, rely state state)
    {ending : Except ε β → σ → Prop} {program : Program interface ε α}
    {next : α → Program interface ε β} {state : σ}
    (ensured : Ensures serve rely guarantee
      (fun outcome after =>
        match outcome with
        | .ok result => Ensures serve rely guarantee ending (next result) after
        | .error error => ending (.error error) after) program state) :
    Ensures serve rely guarantee ending (program.andThen next) state := by
  induction program generalizing state with
  | done outcome =>
      cases outcome with
      | ok result => exact ensured state (refl state)
      | error error => exact ensured
  | ask request resume ih =>
      intro after move
      obtain ⟨kept, rest⟩ := ensured after move
      exact ⟨kept, ih _ rest⟩

/-- A program that runs alone ends as it ensures. -/
theorem run (refl : ∀ state, rely state state) {ending : Except ε α → σ → Prop}
    {program : Program interface ε α} {state : σ}
    (ensured : Ensures serve rely guarantee ending program state) :
    ending (program.run serve state).1 (program.run serve state).2 := by
  induction program generalizing state with
  | done outcome => exact ensured state (refl state)
  | ask request next ih => exact ih _ (ensured state (refl state)).2

/-- What neither the others nor the program change is unchanged at the end. -/
theorem and_unchanged (same : σ → σ → Prop)
    (trans : ∀ {a b c}, same a b → same b c → same a c) (others : ∀ {a b}, rely a b → same a b)
    (own : ∀ {a b}, guarantee a b → same a b) {ending : Except ε α → σ → Prop}
    {program : Program interface ε α} {begun state : σ} (before : same begun state)
    (ensured : Ensures serve rely guarantee ending program state) :
    Ensures serve rely guarantee (fun outcome after => ending outcome after ∧ same begun after)
      program state := by
  induction program generalizing state with
  | done outcome => exact fun after move => ⟨ensured after move, trans before (others move)⟩
  | ask request next ih =>
      intro after move
      obtain ⟨kept, rest⟩ := ensured after move
      exact ⟨kept, ih _ (trans (trans before (others move)) (own kept)) rest⟩

end Ensures

end Program

namespace Task

variable {α β σ : Type}
variable {serve : (request : Service.Request) → σ → Service.Reply request × σ}
variable {rely guarantee : σ → σ → Prop}

/-- An operation of the engine and what comes after it, by the answer of the engine. -/
theorem engine_andThen_ensures {call : EngineCall} {next : call.Answer → Task β}
    {ending : Except IndexingError β → σ → Prop} {state : σ}
    (kept : ∀ later, rely state later → guarantee later (serve (.engine call) later).2)
    (answered : ∀ later answer, rely state later → (serve (.engine call) later).1 = .ok answer →
      Program.Ensures serve rely guarantee ending (next answer) (serve (.engine call) later).2)
    (failed : ∀ later error, rely state later → (serve (.engine call) later).1 = .error error →
      ∀ after, rely (serve (.engine call) later).2 after →
        ending (.error (.engine error)) after) :
    Program.Ensures serve rely guarantee ending ((Task.engine call).andThen next) state := by
  intro later move
  refine ⟨kept later move, ?_⟩
  have onAnswer := answered later
  have onFailure := failed later
  revert onAnswer onFailure
  cases (serve (.engine call) later).1 with
  | error error => exact fun _ onFailure => onFailure error move rfl
  | ok answer => exact fun onAnswer _ => onAnswer answer move rfl

end Task
end LearningIndex
