import LearningIndex.Indexing.Message
import LearningIndex.Indexing.Service

/-!
# The worker

Messages go through a bounded channel to one worker, which handles them one at a time in the order
in which they came.  A failure is counted and does not stop it.  It stops when it is told to shut
down, before it takes another message, and when no message is left and none can come any more.
What is still in the channel then is abandoned.

While messages are produced the worker waits, unless the channel is full: then it handles the
oldest message to make room.
-/

namespace LearningIndex

/-- What a worker did before it stopped. -/
structure WorkerSummary where
  /-- The number of messages handled, with or without rejected items. -/
  handled : Nat := 0
  /-- The number of messages of which the engine rejected items. -/
  degraded : Nat := 0
  /-- The number of messages that could not be handled. -/
  failed : Nat := 0
  /-- The number of messages left in the channel. -/
  abandoned : Nat := 0
deriving DecidableEq, Repr

namespace WorkerSummary

/-- The number of messages that the worker took or left behind. -/
def total (summary : WorkerSummary) : Nat :=
  summary.handled + summary.failed + summary.abandoned

/-- Whether some messages were not handled. -/
def isIncomplete (summary : WorkerSummary) : Bool :=
  0 < summary.failed || 0 < summary.abandoned

/-- The summary with the outcome of one more message. -/
def count (summary : WorkerSummary) : Except IndexingError Bool → WorkerSummary
  | .ok true => { summary with handled := summary.handled + 1 }
  | .ok false =>
    { summary with handled := summary.handled + 1, degraded := summary.degraded + 1 }
  | .error _ => { summary with failed := summary.failed + 1 }

/-- The summary of a worker that stops with messages in the channel. -/
def abandon {μ : Type} (summary : WorkerSummary) (queue : List μ) : WorkerSummary :=
  { summary with abandoned := queue.length }

end WorkerSummary

/-- The receiving end of a channel. -/
structure Mailbox (μ : Type) where
  /-- The messages in the channel, the oldest first. -/
  queue : List μ
  shutdown : Bool
  closed : Bool
deriving DecidableEq, Repr

/-- What a worker does next. -/
inductive Turn (μ : Type) where
  | stop
  | take (message : μ) (rest : List μ)
  | wait
deriving DecidableEq, Repr

/-- What a worker does that was not told to shut down. -/
def Mailbox.receive {μ : Type} (mailbox : Mailbox μ) : Turn μ :=
  match mailbox.queue with
  | message :: rest => .take message rest
  | [] => if mailbox.closed then .stop else .wait

/-- The next turn of the worker.  A shutdown comes before any message. -/
def Mailbox.turn {μ : Type} (mailbox : Mailbox μ) : Turn μ :=
  if mailbox.shutdown then .stop else mailbox.receive

namespace Worker

/-- The number of messages that a channel holds unless another number is chosen. -/
def defaultCapacity : Nat := 1000

/-- Handles all messages of a channel to which none is added. -/
def drain {μ : Type} (handle : μ → Task Bool) :
    List μ → WorkerSummary → Task WorkerSummary
  | [], summary => .done (.ok summary)
  | message :: rest, summary => do
    let outcome ← (handle message).attempt
    drain handle rest (summary.count outcome)

/-- Runs a worker on a channel to which no message is added and whose dispatchers are gone. -/
def run {μ : Type} (handle : μ → Task Bool) (queue : List μ) (shutdown : Bool) :
    Task WorkerSummary :=
  match (Mailbox.mk queue shutdown true).turn with
  | .take message rest => drain handle (message :: rest) {}
  | .stop | .wait => .done (.ok (({} : WorkerSummary).abandon queue))

/-- The error of handing a message to a worker that is gone. -/
def goneError : IndexingError :=
  .dispatch "Worker is gone: channel closed"

end Worker

namespace Dispatching

/-- A request of a program that produces messages. -/
inductive Request where
  | service (request : Service.Request)
  | dispatch (message : IndexMessage)

/-- What answers a request. -/
@[reducible]
def Reply : Request → Type
  | .service request => Service.Reply request
  | .dispatch _ => Except IndexingError Unit

end Dispatching

/-- The services and a worker that takes messages. -/
@[reducible]
def dispatching : Interface := ⟨Dispatching.Request, Dispatching.Reply⟩

/-- A program that produces messages. -/
abbrev Producer := Program dispatching IndexingError

namespace Producer

/-- A program over the services as one that dispatches nothing. -/
def ofTask {α : Type} (task : Task α) : Producer α :=
  task.lower fun (question : Service.Request) =>
    .ask (.service question) fun (reply : Service.Reply question) => .done (.ok reply)

def dispatch (message : IndexMessage) : Producer Unit :=
  .ask (.dispatch message) fun (reply : Except IndexingError Unit) => .done reply

def dispatchAll : List IndexMessage → Producer Unit
  | [] => .done (.ok ())
  | message :: rest => do
    dispatch message
    dispatchAll rest

/-- Runs a producer and a worker on the messages that it dispatches.  When the producer ends, the
channel is closed and the worker handles what is left; when it fails, the worker is shut down. -/
def withWorker {α : Type} (capacity : Nat) (handle : IndexMessage → Task Bool) :
    Producer α → List IndexMessage → WorkerSummary →
      Task (Except IndexingError α × WorkerSummary)
  | .done (.ok result), queue, summary => do
    let final ← Worker.drain handle queue summary
    return (.ok result, final)
  | .done (.error error), queue, summary =>
    .done (.ok (.error error, summary.abandon queue))
  | .ask (.service question) next, queue, summary =>
    .ask question fun (reply : Service.Reply question) =>
      withWorker capacity handle (next reply) queue summary
  | .ask (.dispatch message) next, queue, summary =>
    if queue.length < capacity then
      withWorker capacity handle (next (.ok ())) (queue ++ [message]) summary
    else
      match queue with
      | [] => withWorker capacity handle (next (.ok ())) [message] summary
      | oldest :: rest =>
        (handle oldest).attempt.andThen fun outcome =>
          withWorker capacity handle (next (.ok ())) (rest ++ [message]) (summary.count outcome)

end Producer
end LearningIndex
