/-!
# Programs over requests

A program is a finite description of what is asked of the outside and of what is done with the
answers.  It ends with a result or with an error.  Nothing is asked while a program is built: a
server answers the requests one after the other when the program is run, and the same program can be
run by different servers.
-/

namespace LearningIndex

/-- What can be asked, and what answers each question. -/
structure Interface where
  Request : Type
  Reply : Request → Type

/-- A computation that asks requests of an interface. -/
inductive Program (interface : Interface) (ε α : Type) where
  | done (result : Except ε α)
  | ask (request : interface.Request) (next : interface.Reply request → Program interface ε α)

namespace Program

variable {interface : Interface} {ε α β : Type}

/-- The program that fails at once. -/
def fail (error : ε) : Program interface ε α :=
  done (.error error)

/-- The program with a known outcome. -/
def ofExcept (result : Except ε α) : Program interface ε α :=
  done result

/-- A program followed by another one that takes its result. -/
def andThen (program : Program interface ε α) (next : α → Program interface ε β) :
    Program interface ε β :=
  match program with
  | done (.ok result) => next result
  | done (.error error) => done (.error error)
  | ask question resume => ask question fun reply => (resume reply).andThen next

instance : Monad (Program interface ε) where
  pure result := done (.ok result)
  bind := andThen

/-- The program that ends with the outcome of another one, be it a result or an error. -/
def attempt {ε' : Type} (program : Program interface ε α) :
    Program interface ε' (Except ε α) :=
  match program with
  | done result => done (.ok result)
  | ask question next => ask question fun reply => (next reply).attempt

/-- The program with its error put into other words. -/
def mapError {ε' : Type} (change : ε → ε') (program : Program interface ε α) :
    Program interface ε' α :=
  match program with
  | done (.ok result) => done (.ok result)
  | done (.error error) => done (.error (change error))
  | ask question next => ask question fun reply => (next reply).mapError change

/-- The program over another interface that answers each request with a program of its own. -/
def lower {target : Interface}
    (serve : (question : interface.Request) → Program target ε (interface.Reply question))
    (program : Program interface ε α) : Program target ε α :=
  match program with
  | done result => done result
  | ask question next => (serve question).andThen fun reply => (next reply).lower serve

/-- Runs a program with a server that keeps a state. -/
def run {σ : Type} (serve : (question : interface.Request) → σ → interface.Reply question × σ)
    (program : Program interface ε α) (state : σ) : Except ε α × σ :=
  match program with
  | done result => (result, state)
  | ask question next =>
    let (reply, state) := serve question state
    (next reply).run serve state

@[simp]
theorem done_ok_andThen (result : α) (next : α → Program interface ε β) :
    (done (.ok result) : Program interface ε α).andThen next = next result := rfl

@[simp]
theorem done_error_andThen (error : ε) (next : α → Program interface ε β) :
    (done (.error error) : Program interface ε α).andThen next = done (.error error) := rfl

@[simp]
theorem ask_andThen (question : interface.Request)
    (resume : interface.Reply question → Program interface ε α)
    (next : α → Program interface ε β) :
    (ask question resume).andThen next =
      ask question fun reply => (resume reply).andThen next := rfl

@[simp]
theorem bind_eq_andThen (program : Program interface ε α) (next : α → Program interface ε β) :
    program >>= next = program.andThen next := rfl

@[simp]
theorem pure_eq_done (result : α) : (pure result : Program interface ε α) = done (.ok result) :=
  rfl

end Program
end LearningIndex
