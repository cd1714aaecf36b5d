import LearningIndex.Calendar.Instant
import LearningIndex.Http.Exchange
import LearningIndex.Program
import LearningIndex.Storage.Tree

/-!
# The machine

What a running program asks of the machine it runs on: the bytes of a file, an exchange with the
server of the search engine, and the time.
-/

namespace LearningIndex

namespace Machine

/-- A request to the machine. -/
inductive Request where
  | read (path : String)
  /-- The response of the server at an address to a request. -/
  | exchange (address : String) (request : Http.Request)
  | clock

/-- What answers a request.  A server that cannot be reached gives no response. -/
@[reducible]
def Reply : Request → Type
  | .read _ => Except Storage.ReadError ByteString
  | .exchange _ _ => Option Http.Response
  | .clock => Calendar.Instant

end Machine

/-- The machine that a program runs on. -/
def machine : Interface := ⟨Machine.Request, Machine.Reply⟩

namespace Machine

variable {ε : Type}

def read (path : String) : Program machine ε (Except Storage.ReadError ByteString) :=
  .ask (.read path) fun (reply : Except Storage.ReadError ByteString) => .done (.ok reply)

def exchange (address : String) (request : Http.Request) :
    Program machine ε (Option Http.Response) :=
  .ask (.exchange address request) fun (reply : Option Http.Response) => .done (.ok reply)

def clock : Program machine ε Calendar.Instant :=
  .ask .clock fun (reply : Calendar.Instant) => .done (.ok reply)

end Machine
end LearningIndex
