import LearningIndex.Http.Connection
import LearningIndex.Indexing.Service
import LearningIndex.Storage.Content

/-!
# Wiring

How the services of indexing are had from the machine: operations of the engine by a connection,
extracted text from a directory.
-/

namespace LearningIndex

/-- Where the services come from. -/
structure Wiring where
  connection : Option Http.Connection
  dataDirectory : String

namespace Wiring

variable {ε : Type}

/-- Performs an operation of the engine. -/
def engine (wiring : Wiring) (call : EngineCall) :
    Program machine ε (Except EngineError call.Answer) :=
  match wiring.connection with
  | some connection => connection.perform call
  | none => .done (.ok (.error .unavailable))

/-- Answers a request to the services. -/
def serve (wiring : Wiring) (question : Service.Request) :
    Program machine ε (Service.Reply question) :=
  match question with
  | .engine call => wiring.engine call
  | .file path => Storage.content wiring.dataDirectory path
  | .clock => Machine.clock

/-- A program over the services as one for the machine. -/
def lower {α : Type} (wiring : Wiring) (program : Program services ε α) : Program machine ε α :=
  program.lower fun (question : Service.Request) => wiring.serve question

end Wiring
end LearningIndex
