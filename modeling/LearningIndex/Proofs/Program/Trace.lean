import LearningIndex.Indexing.Worker
import Mathlib.Data.List.Basic

/-!
# Traces of programs

A trace lists the requests of a run in order, each with the reply that it had.  Nothing is assumed
of the replies, so that a statement about all traces of a program is one about every behaviour of
the services.
-/

namespace LearningIndex

/-- A request with the reply to it. -/
structure Exchange (interface : Interface) where
  request : interface.Request
  reply : interface.Reply request

namespace Program

variable {interface : Interface} {ε α β γ : Type}

/-- Given the replies of the trace, the program asks the requests of the trace and nothing else, and
ends with the outcome. -/
inductive Yields : Program interface ε α → List (Exchange interface) → Except ε α → Prop
  | done (outcome : Except ε α) : Yields (.done outcome) [] outcome
  | ask {request : interface.Request} {next : interface.Reply request → Program interface ε α}
      {trace : List (Exchange interface)} {outcome : Except ε α}
      (reply : interface.Reply request) :
      Yields (next reply) trace outcome →
      Yields (.ask request next) (⟨request, reply⟩ :: trace) outcome

/-- After some replies the program asks the request. -/
inductive Asks : Program interface ε α → interface.Request → Prop
  | here (request : interface.Request) (next : interface.Reply request → Program interface ε α) :
      Asks (.ask request next) request
  | later {question request : interface.Request}
      {next : interface.Reply question → Program interface ε α} (reply : interface.Reply question) :
      Asks (next reply) request →
      Asks (.ask question next) request

theorem andThen_assoc (program : Program interface ε α) (first : α → Program interface ε β)
    (second : β → Program interface ε γ) :
    (program.andThen first).andThen second =
      program.andThen fun result => (first result).andThen second := by
  induction program with
  | done outcome => cases outcome <;> rfl
  | ask request next ih =>
      simp only [ask_andThen]
      congr 1
      funext reply
      exact ih reply

@[simp]
theorem andThen_done (program : Program interface ε α) :
    (program.andThen fun result => .done (.ok result)) = program := by
  induction program with
  | done outcome => cases outcome <;> rfl
  | ask request next ih =>
      simp only [ask_andThen]
      congr 1
      funext reply
      exact ih reply

@[simp]
theorem yields_done_iff {outcome ending : Except ε α} {trace : List (Exchange interface)} :
    (Program.done outcome : Program interface ε α).Yields trace ending ↔
      trace = [] ∧ ending = outcome := by
  constructor
  · rintro ⟨⟩
    exact ⟨rfl, rfl⟩
  · rintro ⟨rfl, rfl⟩
    exact .done _

theorem yields_ask_iff {request : interface.Request}
    {next : interface.Reply request → Program interface ε α}
    {trace : List (Exchange interface)} {outcome : Except ε α} :
    (Program.ask request next).Yields trace outcome ↔
      ∃ reply rest, trace = ⟨request, reply⟩ :: rest ∧ (next reply).Yields rest outcome := by
  constructor
  · rintro (_ | ⟨reply, rest⟩)
    exact ⟨reply, _, rfl, rest⟩
  · rintro ⟨reply, rest, rfl, run⟩
    exact .ask reply run

theorem Yields.andThen {program : Program interface ε α} {next : α → Program interface ε β}
    {first second : List (Exchange interface)} {result : α} {outcome : Except ε β}
    (run : program.Yields first (.ok result)) (later : (next result).Yields second outcome) :
    (program.andThen next).Yields (first ++ second) outcome := by
  generalize ending : Except.ok result = middle at run
  induction run with
  | done =>
      subst ending
      exact later
  | ask reply _ ih => exact .ask reply (ih ending)

/-- A run of two programs in sequence is a run of the first that fails, or one of the first that
succeeds and then one of the second. -/
theorem yields_andThen_iff {program : Program interface ε α}
    {next : α → Program interface ε β} {trace : List (Exchange interface)}
    {outcome : Except ε β} :
    (program.andThen next).Yields trace outcome ↔
      (∃ error, program.Yields trace (.error error) ∧ outcome = .error error) ∨
        ∃ middle first second, trace = first ++ second ∧ program.Yields first (.ok middle) ∧
          (next middle).Yields second outcome := by
  constructor
  · intro run
    induction program generalizing trace with
    | done ending =>
        cases ending with
        | error error =>
            obtain ⟨rfl, rfl⟩ := yields_done_iff.mp run
            exact .inl ⟨error, .done _, rfl⟩
        | ok middle => exact .inr ⟨middle, [], trace, rfl, .done _, run⟩
    | ask request resume ih =>
        obtain ⟨reply, rest, rfl, later⟩ := yields_ask_iff.mp run
        rcases ih reply later with ⟨error, failed, rfl⟩ | ⟨middle, first, second, rfl, front, back⟩
        · exact .inl ⟨error, .ask reply failed, rfl⟩
        · exact .inr ⟨middle, ⟨request, reply⟩ :: first, second, rfl, .ask reply front, back⟩
  · rintro (⟨error, failed, rfl⟩ | ⟨middle, first, second, rfl, front, back⟩)
    · generalize ending : Except.error error = inner at failed
      induction failed with
      | done =>
          subst ending
          exact .done _
      | ask reply _ ih => exact .ask reply (ih ending)
    · exact front.andThen back

theorem yields_andThen_ok_iff {program : Program interface ε α}
    {next : α → Program interface ε β} {trace : List (Exchange interface)} {result : β} :
    (program.andThen next).Yields trace (.ok result) ↔
      ∃ middle first second, trace = first ++ second ∧ program.Yields first (.ok middle) ∧
        (next middle).Yields second (.ok result) := by
  simp [yields_andThen_iff]

theorem yields_andThen_map_iff {program : Program interface ε α} {change : α → β}
    {trace : List (Exchange interface)} {outcome : Except ε β} :
    (program.andThen fun result => .done (.ok (change result))).Yields trace outcome ↔
      ∃ inner, program.Yields trace inner ∧ outcome = inner.map change := by
  induction program generalizing trace with
  | done ending => cases ending <;> simp [Except.map]
  | ask request next ih =>
      simp only [ask_andThen, yields_ask_iff, ih]
      constructor
      · rintro ⟨reply, rest, rfl, inner, run, rfl⟩
        exact ⟨inner, ⟨reply, rest, rfl, run⟩, rfl⟩
      · rintro ⟨inner, ⟨reply, rest, rfl, run⟩, rfl⟩
        exact ⟨reply, rest, rfl, inner, run, rfl⟩

theorem Yields.asks_andThen {program : Program interface ε α} {next : α → Program interface ε β}
    {trace : List (Exchange interface)} {result : α} (run : program.Yields trace (.ok result))
    {request : interface.Request} (asked : (next result).Asks request) :
    (program.andThen next).Asks request := by
  generalize ending : Except.ok result = outcome at run
  induction run with
  | done =>
      subst ending
      exact asked
  | ask reply _ ih => exact .later reply (ih ending)

theorem Yields.of_attempt {program : Program interface ε α}
    {trace : List (Exchange interface)} {ε' : Type} {outcome : Except ε' (Except ε α)}
    (run : program.attempt.Yields trace outcome) : ∃ result, outcome = .ok result := by
  induction program generalizing trace with
  | done result => exact ⟨result, (yields_done_iff.mp run).2⟩
  | ask request next ih =>
      obtain ⟨reply, rest, rfl, later⟩ := yields_ask_iff.mp run
      exact ih reply later

theorem Yields.of_mapError {ε' : Type} {change : ε → ε'} {program : Program interface ε α}
    {trace : List (Exchange interface)} {outcome : Except ε' α}
    (run : (program.mapError change).Yields trace outcome) :
    ∃ inner, program.Yields trace inner ∧ outcome = inner.mapError change := by
  induction program generalizing trace with
  | done ending =>
      cases ending <;> obtain ⟨rfl, rfl⟩ := yields_done_iff.mp run
      · exact ⟨_, .done _, rfl⟩
      · exact ⟨_, .done _, rfl⟩
  | ask request next ih =>
      obtain ⟨reply, rest, rfl, later⟩ := yields_ask_iff.mp run
      obtain ⟨inner, ran, rfl⟩ := ih reply later
      exact ⟨inner, .ask reply ran, rfl⟩

/-- Whatever is answered, the program asks only what is allowed, and a result that it ends with is
as promised. -/
def Confined (allowed : interface.Request → Prop) (promised : α → Prop) :
    Program interface ε α → Prop
  | .done (.ok result) => promised result
  | .done (.error _) => True
  | .ask request next => allowed request ∧ ∀ reply, (next reply).Confined allowed promised

theorem Confined.andThen {allowed : interface.Request → Prop} {first : α → Prop} {second : β → Prop}
    {program : Program interface ε α} {next : α → Program interface ε β}
    (confined : program.Confined allowed first)
    (later : ∀ result, first result → (next result).Confined allowed second) :
    (program.andThen next).Confined allowed second := by
  induction program with
  | done outcome =>
      cases outcome with
      | ok result => exact later result confined
      | error error => trivial
  | ask request resume ih =>
      obtain ⟨permitted, rest⟩ := confined
      exact ⟨permitted, fun reply => ih reply (rest reply)⟩

theorem confined_ofExcept {allowed : interface.Request → Prop} {promised : α → Prop}
    {outcome : Except ε α} (kept : ∀ result, outcome = .ok result → promised result) :
    (ofExcept outcome : Program interface ε α).Confined allowed promised := by
  cases outcome with
  | ok result => exact kept result rfl
  | error error => trivial

theorem Confined.of_asks {allowed : interface.Request → Prop} {promised : α → Prop}
    {program : Program interface ε α} (confined : program.Confined allowed promised)
    {request : interface.Request} (asked : program.Asks request) : allowed request := by
  induction asked with
  | here => exact confined.1
  | later reply _ ih => exact ih (confined.2 reply)

/-- Whatever is answered, what is asked in a run is allowed. -/
theorem Confined.of_yields {allowed : interface.Request → Prop}
    {promised : α → Prop} {program : Program interface ε α}
    (confined : program.Confined allowed promised) {trace : List (Exchange interface)}
    {outcome : Except ε α} (run : program.Yields trace outcome) :
    ∀ exchange ∈ trace, allowed exchange.request := by
  induction run with
  | done => simp
  | ask reply _ ih => exact List.forall_mem_cons.mpr ⟨confined.1, ih (confined.2 reply)⟩

end Program

namespace Task

theorem yields_engine_iff {call : EngineCall} {trace : List (Exchange services)}
    {outcome : Except IndexingError call.Answer} :
    (Task.engine call).Yields trace outcome ↔
      ∃ reply : Except EngineError call.Answer,
        trace = [⟨.engine call, reply⟩] ∧ outcome = reply.mapError .engine := by
  simp only [Task.engine, Program.yields_ask_iff, Program.yields_done_iff]
  constructor
  · rintro ⟨reply, _, rfl, rfl, rfl⟩
    exact ⟨reply, rfl, rfl⟩
  · rintro ⟨reply, rfl, rfl⟩
    exact ⟨reply, [], rfl, rfl, rfl⟩

theorem yields_clock_ok_iff {trace : List (Exchange services)} {time : Calendar.Instant} :
    Task.clock.Yields trace (.ok time) ↔ trace = [⟨.clock, time⟩] := by
  simp [Task.clock, Program.yields_ask_iff]

end Task

namespace Producer

/-- The exchange with a service as one of a program that also dispatches. -/
def served (exchange : Exchange services) : Exchange dispatching :=
  ⟨.service exchange.request, exchange.reply⟩

/-- The exchange by which a message is handed over. -/
def handed (message : IndexMessage) : Exchange dispatching :=
  ⟨.dispatch message, (.ok () : Except IndexingError Unit)⟩

/-- The exchange by which a message is refused. -/
def refused (message : IndexMessage) (error : IndexingError) : Exchange dispatching :=
  ⟨.dispatch message, (.error error : Except IndexingError Unit)⟩

/-- The exchange with a service, if it is one. -/
def service? : Exchange dispatching → Option (Exchange services)
  | ⟨.service request, reply⟩ => some ⟨request, reply⟩
  | ⟨.dispatch _, _⟩ => none

/-- The message that an exchange handed over. -/
def accepted? : Exchange dispatching → Option IndexMessage
  | ⟨.service _, _⟩ => none
  | ⟨.dispatch message, .ok ()⟩ => some message
  | ⟨.dispatch _, .error _⟩ => none

@[simp]
theorem service?_served (exchange : Exchange services) :
    service? (served exchange) = some exchange := rfl

@[simp]
theorem service?_handed (message : IndexMessage) : service? (handed message) = none := rfl

@[simp]
theorem accepted?_served (exchange : Exchange services) :
    accepted? (served exchange) = none := rfl

@[simp]
theorem accepted?_handed (message : IndexMessage) :
    accepted? (handed message) = some message := rfl

@[simp]
theorem service?_comp_served : service? ∘ served = some := rfl

@[simp]
theorem service?_comp_handed : service? ∘ handed = fun _ => none := rfl

@[simp]
theorem accepted?_comp_served : accepted? ∘ served = fun _ => none := rfl

@[simp]
theorem accepted?_comp_handed : accepted? ∘ handed = some := rfl

theorem yields_ofTask_iff {α : Type} {task : Task α} {trace : List (Exchange dispatching)}
    {outcome : Except IndexingError α} :
    (ofTask task).Yields trace outcome ↔
      ∃ inner, trace = inner.map served ∧ task.Yields inner outcome := by
  induction task generalizing trace with
  | done result =>
      constructor
      · intro run
        obtain ⟨rfl, rfl⟩ := Program.yields_done_iff.mp run
        exact ⟨[], rfl, .done _⟩
      · rintro ⟨inner, rfl, run⟩
        obtain ⟨rfl, rfl⟩ := Program.yields_done_iff.mp run
        exact .done _
  | ask request next ih =>
      constructor
      · intro run
        obtain ⟨reply, rest, rfl, later⟩ := Program.yields_ask_iff.mp run
        obtain ⟨inner, rfl, task⟩ := (ih reply).mp later
        exact ⟨⟨request, reply⟩ :: inner, rfl, Program.yields_ask_iff.mpr ⟨reply, _, rfl, task⟩⟩
      · rintro ⟨inner, rfl, run⟩
        obtain ⟨reply, rest, rfl, later⟩ := Program.yields_ask_iff.mp run
        exact Program.yields_ask_iff.mpr ⟨reply, _, rfl, (ih reply).mpr ⟨rest, rfl, later⟩⟩

theorem yields_dispatchAll_ok_iff {messages : List IndexMessage}
    {trace : List (Exchange dispatching)} :
    (dispatchAll messages).Yields trace (.ok ()) ↔ trace = messages.map handed := by
  induction messages generalizing trace with
  | nil => simp [dispatchAll]
  | cons message rest ih =>
      constructor
      · intro run
        obtain ⟨reply, after, rfl, later⟩ := Program.yields_ask_iff.mp run
        cases reply with
        | error error =>
            obtain ⟨_, failed⟩ := Program.yields_done_iff.mp later
            cases failed
        | ok _ =>
            rw [ih.mp later]
            rfl
      · rintro rfl
        exact Program.yields_ask_iff.mpr ⟨.ok (), _, rfl, ih.mpr rfl⟩

/-- Messages are handed over up to the first one that is refused. -/
theorem yields_dispatchAll_error_iff {messages : List IndexMessage}
    {trace : List (Exchange dispatching)} {error : IndexingError} :
    (dispatchAll messages).Yields trace (.error error) ↔
      ∃ before message after, messages = before ++ message :: after ∧
        trace = before.map handed ++ [refused message error] := by
  induction messages generalizing trace with
  | nil => simp [dispatchAll]
  | cons first rest ih =>
      constructor
      · intro run
        obtain ⟨reply, after, rfl, later⟩ := Program.yields_ask_iff.mp run
        cases reply with
        | error reason =>
            obtain ⟨rfl, same⟩ := Program.yields_done_iff.mp later
            cases same
            exact ⟨[], first, rest, rfl, rfl⟩
        | ok _ =>
            obtain ⟨before, message, unsent, rfl, rfl⟩ := ih.mp later
            exact ⟨first :: before, message, unsent, rfl, rfl⟩
      · rintro ⟨_ | ⟨other, before⟩, message, after, split, rfl⟩
        · obtain ⟨rfl, rfl⟩ := List.cons.inj split
          exact Program.yields_ask_iff.mpr ⟨.error error, [], rfl, .done _⟩
        · obtain ⟨rfl, rfl⟩ := List.cons.inj split
          exact Program.yields_ask_iff.mpr
            ⟨.ok (), _, rfl, ih.mpr ⟨before, message, after, rfl, rfl⟩⟩

theorem dispatchAll_append (first second : List IndexMessage) :
    dispatchAll (first ++ second) = (dispatchAll first).andThen fun _ => dispatchAll second := by
  induction first with
  | nil => rfl
  | cons message rest ih =>
      simp only [List.cons_append, dispatchAll, Program.bind_eq_andThen, ih,
        Program.andThen_assoc]

end Producer
end LearningIndex
