import LearningIndex.Bytes.Utf8
import LearningIndex.Calendar.Instant
import LearningIndex.Engine.Call
import LearningIndex.Indexing.Error
import LearningIndex.Program

/-!
# Services

What indexing asks of the outside: operations of the search engine, the text of files, and the time.
-/

namespace LearningIndex

namespace Service

/-- A request to one of the services. -/
inductive Request where
  | engine (call : EngineCall)
  | file (path : String)
  | clock

/-- What answers a request.  There may be no file at a path. -/
@[reducible]
def Reply : Request → Type
  | .engine call => Except EngineError call.Answer
  | .file _ => Except IndexingError (Option ByteString)
  | .clock => Calendar.Instant

end Service

/-- The services that indexing uses. -/
@[reducible]
def services : Interface := ⟨Service.Request, Service.Reply⟩

/-- A program over the services that may fail with an error of indexing. -/
abbrev Task := Program services IndexingError

namespace Task

def engine (call : EngineCall) : Task call.Answer :=
  .ask (.engine call) fun (reply : Except EngineError call.Answer) =>
    .done (reply.mapError .engine)

def file (path : String) : Task (Option ByteString) :=
  .ask (.file path) fun (reply : Except IndexingError (Option ByteString)) => .done reply

def clock : Task Calendar.Instant :=
  .ask .clock fun (reply : Calendar.Instant) => .done (.ok reply)

end Task
end LearningIndex
