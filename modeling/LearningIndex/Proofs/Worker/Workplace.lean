import LearningIndex.Indexing.Worker
import Mathlib.Data.List.Infix

/-!
# A worker among dispatchers

A worker, the channel that feeds it and the signals that stop it, shared by any number of
dispatchers and of handles for signals.  A step is one operation on the channel or on the signals,
and whoever can make a step may be the next to make one.  To receive, the worker looks at the
signals first and then at the channel, which are two steps, so that others may act in between.
Interrupts from the keyboard are left out.
-/

namespace LearningIndex

namespace Worker

/-- The number of messages that a channel of some size holds, which is one at least. -/
def capacity (size : Nat) : Nat :=
  max size 1

/-- Whether the engine rejected items of a message that was handled. -/
def isPartial : Except IndexingError Bool → Bool
  | .ok false => true
  | _ => false

/-- The summary of a worker for which messages ended with some outcomes. -/
def tally (outcomes : List (Except IndexingError Bool)) : WorkerSummary :=
  outcomes.foldl WorkerSummary.count {}

theorem tally_append (outcomes : List (Except IndexingError Bool))
    (outcome : Except IndexingError Bool) :
    tally (outcomes ++ [outcome]) = (tally outcomes).count outcome :=
  List.foldl_append

theorem tally_eq (outcomes : List (Except IndexingError Bool)) :
    tally outcomes = ⟨outcomes.countP Except.isOk, outcomes.countP isPartial,
      outcomes.countP fun outcome => !outcome.isOk, 0⟩ := by
  induction outcomes using List.reverseRecOn with
  | nil => rfl
  | append_singleton outcomes outcome ih =>
      rw [tally_append, ih]
      rcases outcome with error | (_ | _) <;>
        simp [WorkerSummary.count, isPartial, Except.isOk, Except.toBool]

end Worker

/-- The signals by which a worker is told to shut down. -/
structure Signals where
  sent : Nat
  /-- The number of handles outside of the worker from which signals can be sent. -/
  handles : Nat
  /-- Whether the worker keeps a handle for itself. -/
  own : Bool

/-- Waiting for a signal ends with a signal, or if there is no handle left. -/
def Signals.isHeard (signals : Signals) : Bool :=
  0 < signals.sent || signals.handles == 0 && !signals.own

/-- How far a worker has come. -/
inductive WorkerPhase (μ : Type) where
  | created
  /-- It is about to receive. -/
  | free (summary : WorkerSummary)
  /-- It has looked at the signals in vain, and looks at the channel next. -/
  | receiving (summary : WorkerSummary)
  | busy (message : μ) (summary : WorkerSummary)
  /-- It has stopped, and has yet to close the channel. -/
  | stopped (summary : WorkerSummary)
  /-- It has closed the channel, and counts the messages that are left. -/
  | clearing (summary : WorkerSummary) (left : List μ)
  | gone (summary : WorkerSummary)

/-- A worker and all that it shares with others. -/
structure Workplace (μ : Type) where
  dispatchers : List Nat
  /-- The messages that wait for the channel to take them, each with its dispatcher. -/
  offers : List (Nat × μ)
  queue : List μ
  /-- Whether the channel was closed by the worker. -/
  closed : Bool
  signals : Signals
  phase : WorkerPhase μ

namespace Workplace

variable {μ : Type}

/-- A worker that was just made, with its dispatcher. -/
def start : Workplace μ :=
  ⟨[0], [], [], false, ⟨0, 0, true⟩, .created⟩

/-- What the worker sees when it receives. -/
def mailbox (place : Workplace μ) : Mailbox μ :=
  ⟨place.queue, place.signals.isHeard, place.dispatchers.isEmpty⟩

/-- Something that happens at a workplace. -/
inductive Event (μ : Type) where
  /-- A dispatcher offers a message to the channel. -/
  | offered (dispatcher : Nat) (message : μ)
  /-- The dispatch of a message ends. -/
  | dispatched (dispatcher : Nat) (message : μ) (reply : Except IndexingError Unit)
  /-- A dispatcher gives up to offer a message. -/
  | withdrawn (dispatcher : Nat) (message : μ)
  | cloned (dispatcher copy : Nat)
  | dropped (dispatcher : Nat)
  | handed
  | released
  | signalled
  | begun
  /-- The worker looks at the signals, and there is none. -/
  | looked
  /-- The worker takes a message and begins to handle it. -/
  | taken (message : μ)
  /-- The worker finds no message, but one may come. -/
  | waited
  | finished (message : μ) (outcome : Except IndexingError Bool)
  | stopped
  | closed
  /-- The worker finds a message that is left in the channel. -/
  | cleared (message : μ)
  | returned (summary : WorkerSummary)

/-- What happens at a workplace with a channel of some size, and what it leads to. -/
inductive Step (size : Nat) : Workplace μ → Event μ → Workplace μ → Prop
  | offer {place : Workplace μ} {dispatcher : Nat} (message : μ)
      (present : dispatcher ∈ place.dispatchers) :
      Step size place (.offered dispatcher message)
        { place with offers := place.offers ++ [(dispatcher, message)] }
  | accept {place : Workplace μ} {dispatcher : Nat} {message : μ} {earlier later : List (Nat × μ)}
      (offered : place.offers = earlier ++ (dispatcher, message) :: later)
      (opened : place.closed = false) (room : place.queue.length < Worker.capacity size) :
      Step size place (.dispatched dispatcher message (.ok ()))
        { place with offers := earlier ++ later, queue := place.queue ++ [message] }
  | refuse {place : Workplace μ} {dispatcher : Nat} {message : μ} {earlier later : List (Nat × μ)}
      (offered : place.offers = earlier ++ (dispatcher, message) :: later)
      (shut : place.closed = true) :
      Step size place (.dispatched dispatcher message (.error Worker.goneError))
        { place with offers := earlier ++ later }
  | withdraw {place : Workplace μ} {dispatcher : Nat} {message : μ}
      {earlier later : List (Nat × μ)}
      (offered : place.offers = earlier ++ (dispatcher, message) :: later) :
      Step size place (.withdrawn dispatcher message) { place with offers := earlier ++ later }
  | clone {place : Workplace μ} {dispatcher copy : Nat} (present : dispatcher ∈ place.dispatchers)
      (new : copy ∉ place.dispatchers) :
      Step size place (.cloned dispatcher copy)
        { place with dispatchers := place.dispatchers ++ [copy] }
  -- A dispatcher cannot be dropped while it offers a message.
  | drop {place : Workplace μ} {dispatcher : Nat} (present : dispatcher ∈ place.dispatchers)
      (unoccupied : ∀ offer ∈ place.offers, offer.1 ≠ dispatcher) :
      Step size place (.dropped dispatcher)
        { place with dispatchers := place.dispatchers.filter (· ≠ dispatcher) }
  -- Handles are made from other handles, and from the worker before it begins.
  | hand {place : Workplace μ} (source : place.phase = .created ∨ 0 < place.signals.handles) :
      Step size place .handed
        { place with signals.handles := place.signals.handles + 1 }
  | release {place : Workplace μ} (present : 0 < place.signals.handles) :
      Step size place .released { place with signals.handles := place.signals.handles - 1 }
  -- Nobody hears a signal when the worker is gone, and sending it fails.
  | signal {place : Workplace μ} (present : 0 < place.signals.handles)
      (heard : ∀ summary, place.phase ≠ .gone summary) :
      Step size place .signalled { place with signals.sent := place.signals.sent + 1 }
  | begin {place : Workplace μ} (created : place.phase = .created) :
      Step size place .begun { place with phase := .free {} }
  | look {place : Workplace μ} {summary : WorkerSummary} (free : place.phase = .free summary)
      (unheard : place.signals.isHeard = false) :
      Step size place .looked { place with phase := .receiving summary }
  | heed {place : Workplace μ} {summary : WorkerSummary} (free : place.phase = .free summary)
      (heard : place.signals.isHeard = true) :
      Step size place .stopped { place with phase := .stopped summary }
  | take {place : Workplace μ} {summary : WorkerSummary} {message : μ} {rest : List μ}
      (receiving : place.phase = .receiving summary)
      (turn : place.mailbox.receive = .take message rest) :
      Step size place (.taken message) { place with queue := rest, phase := .busy message summary }
  | wait {place : Workplace μ} {summary : WorkerSummary}
      (receiving : place.phase = .receiving summary) (turn : place.mailbox.receive = .wait) :
      Step size place .waited { place with phase := .free summary }
  | stop {place : Workplace μ} {summary : WorkerSummary}
      (receiving : place.phase = .receiving summary) (turn : place.mailbox.receive = .stop) :
      Step size place .stopped { place with phase := .stopped summary }
  | finish {place : Workplace μ} {summary : WorkerSummary} {message : μ}
      (outcome : Except IndexingError Bool) (busy : place.phase = .busy message summary) :
      Step size place (.finished message outcome)
        { place with phase := .free (summary.count outcome) }
  | close {place : Workplace μ} {summary : WorkerSummary}
      (stopped : place.phase = .stopped summary) :
      Step size place .closed { place with closed := true, phase := .clearing summary [] }
  | clear {place : Workplace μ} {summary : WorkerSummary} {left rest : List μ} {message : μ}
      (clearing : place.phase = .clearing summary left) (queued : place.queue = message :: rest) :
      Step size place (.cleared message)
        { place with queue := rest, phase := .clearing summary (left ++ [message]) }
  | depart {place : Workplace μ} {summary : WorkerSummary} {left : List μ}
      (clearing : place.phase = .clearing summary left) (empty : place.queue = []) :
      Step size place (.returned (summary.abandon left))
        { place with signals.own := false, phase := .gone (summary.abandon left) }

/-- All that happened since a worker was made, in order, and what it has led to. -/
inductive History (size : Nat) : List (Event μ) → Workplace μ → Prop
  | start : History size [] start
  | step {log : List (Event μ)} {place after : Workplace μ} {event : Event μ}
      (earlier : History size log place) (next : Step size place event after) :
      History size (log ++ [event]) after

namespace Event

/-- The message of which the dispatch succeeds. -/
def accepted? : Event μ → Option μ
  | dispatched _ message (.ok ()) => some message
  | _ => none

/-- The message that the worker begins to handle. -/
def taken? : Event μ → Option μ
  | taken message => some message
  | _ => none

/-- The message that was handled, and what that came to. -/
def handled? : Event μ → Option (μ × Except IndexingError Bool)
  | finished message outcome => some (message, outcome)
  | _ => none

/-- The message that is found to be left in the channel. -/
def cleared? : Event μ → Option μ
  | cleared message => some message
  | _ => none

/-- Whether the worker has looked at the signals but not yet at the channel, after something more
happens. -/
def receivingAfter (receiving : Bool) : Event μ → Bool
  | looked => true
  | taken _ | waited | stopped => false
  | _ => receiving

end Event

def accepted (log : List (Event μ)) : List μ :=
  log.filterMap Event.accepted?

def taken (log : List (Event μ)) : List μ :=
  log.filterMap Event.taken?

def handled (log : List (Event μ)) : List (μ × Except IndexingError Bool) :=
  log.filterMap Event.handled?

/-- What the handling of messages came to, in order. -/
def outcomes (log : List (Event μ)) : List (Except IndexingError Bool) :=
  (handled log).map Prod.snd

def cleared (log : List (Event μ)) : List μ :=
  log.filterMap Event.cleared?

/-- Whether the worker has looked at the signals but not yet at the channel. -/
def isReceiving (log : List (Event μ)) : Bool :=
  log.foldl Event.receivingAfter false

/-- Operations on the channels are atomic, receiving too: nothing happens between the look at the
signals and the look at the channel. -/
def IsAtomic (log : List (Event μ)) : Prop :=
  ∀ (count : Nat) (inside : count < log.length), isReceiving (log.take count) = true →
    log[count].receivingAfter true = false

instance (log : List (Event μ)) : Decidable (IsAtomic log) :=
  inferInstanceAs (Decidable (∀ (count : Nat) (inside : count < log.length),
    isReceiving (log.take count) = true → log[count].receivingAfter true = false))

end Workplace
end LearningIndex
