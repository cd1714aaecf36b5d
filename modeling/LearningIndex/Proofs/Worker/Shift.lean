import LearningIndex.Proofs.Program.Trace
import LearningIndex.Proofs.Worker.Account

/-!
# A producer at a workplace

A producer works beside a worker until both have returned.  It hands its messages over by the one
dispatcher, waits where the channel is full, drops the dispatcher when it ends and tells the worker
to shut down if it has failed.  Each of the two may make the next step, any reply may come from a
service, and the handling of a message may come to whatever its replies lead to.

A dispatch is never refused, because the worker does not stop as long as the dispatcher is there and
nobody has told it to.  So the worker handles all messages of a producer that succeeds.
-/

namespace LearningIndex

/-- How far a producer beside a worker has come. -/
inductive ProducerPhase (α : Type) where
  /-- It has this yet to do. -/
  | running (rest : Producer α)
  /-- It waits for the channel to take a message. -/
  | offering (message : IndexMessage) (next : Except IndexingError Unit → Producer α)
  /-- It has come to an outcome, and its dispatcher is gone. -/
  | leaving (outcome : Except IndexingError α)
  | ended (outcome : Except IndexingError α)

namespace Workplace

variable {α : Type} {size : Nat} {handle : IndexMessage → Task Bool} {producer : Producer α}

/-- A worker that was just made, with its dispatcher and one handle for signals. -/
def staffed : Workplace IndexMessage :=
  ⟨[0], [], [], false, ⟨0, 1, true⟩, .created⟩

/-- Whether something is done by a worker that handles messages in the given way. -/
def Event.IsWorkers (handle : IndexMessage → Task Bool) : Event IndexMessage → Prop
  | .begun | .looked | .taken _ | .waited | .stopped | .closed | .cleared _ | .returned _ => True
  | .finished message outcome => ∃ calls, (handle message).Yields calls outcome
  | _ => False

/-- All that has happened since a producer began beside a worker: the events at the workplace, the
requests of the producer with their replies, and what this has led to. -/
inductive Shift (size : Nat) (handle : IndexMessage → Task Bool) (producer : Producer α) :
    List (Event IndexMessage) → List (Exchange dispatching) → ProducerPhase α →
      Workplace IndexMessage → Prop
  /-- Nothing has happened but that the handle was given out. -/
  | start : Shift size handle producer [.handed] [] (.running producer) staffed
  | request {log : List (Event IndexMessage)} {trace : List (Exchange dispatching)}
      {place : Workplace IndexMessage} {request : Service.Request}
      {next : Service.Reply request → Producer α}
      (earlier : Shift size handle producer log trace (.running (.ask (.service request) next))
        place) (reply : Service.Reply request) :
      Shift size handle producer log (trace ++ [⟨.service request, reply⟩])
        (.running (next reply)) place
  | offer {log : List (Event IndexMessage)} {trace : List (Exchange dispatching)}
      {place after : Workplace IndexMessage} {message : IndexMessage}
      {next : Except IndexingError Unit → Producer α}
      (earlier : Shift size handle producer log trace (.running (.ask (.dispatch message) next))
        place) (step : Step size place (.offered 0 message) after) :
      Shift size handle producer (log ++ [.offered 0 message]) trace (.offering message next)
        after
  | answer {log : List (Event IndexMessage)} {trace : List (Exchange dispatching)}
      {place after : Workplace IndexMessage} {message : IndexMessage}
      {next : Except IndexingError Unit → Producer α} {reply : Except IndexingError Unit}
      (earlier : Shift size handle producer log trace (.offering message next) place)
      (step : Step size place (.dispatched 0 message reply) after) :
      Shift size handle producer (log ++ [.dispatched 0 message reply])
        (trace ++ [⟨.dispatch message, reply⟩]) (.running (next reply)) after
  | drop {log : List (Event IndexMessage)} {trace : List (Exchange dispatching)}
      {place after : Workplace IndexMessage} {outcome : Except IndexingError α}
      (earlier : Shift size handle producer log trace (.running (.done outcome)) place)
      (step : Step size place (.dropped 0) after) :
      Shift size handle producer (log ++ [.dropped 0]) trace (.leaving outcome) after
  /-- A producer that has failed tells the worker to shut down. -/
  | signal {log : List (Event IndexMessage)} {trace : List (Exchange dispatching)}
      {place after : Workplace IndexMessage} {error : IndexingError}
      (earlier : Shift size handle producer log trace (.leaving (.error error)) place)
      (step : Step size place .signalled after) :
      Shift size handle producer (log ++ [.signalled]) trace (.ended (.error error)) after
  /-- A producer that has failed finds the worker gone. -/
  | late {log : List (Event IndexMessage)} {trace : List (Exchange dispatching)}
      {place : Workplace IndexMessage} {error : IndexingError} {summary : WorkerSummary}
      (earlier : Shift size handle producer log trace (.leaving (.error error)) place)
      (gone : place.phase = .gone summary) :
      Shift size handle producer log trace (.ended (.error error)) place
  | finish {log : List (Event IndexMessage)} {trace : List (Exchange dispatching)}
      {place : Workplace IndexMessage} {result : α}
      (earlier : Shift size handle producer log trace (.leaving (.ok result)) place) :
      Shift size handle producer log trace (.ended (.ok result)) place
  /-- The handle of a producer that has returned is dropped. -/
  | release {log : List (Event IndexMessage)} {trace : List (Exchange dispatching)}
      {place after : Workplace IndexMessage} {outcome : Except IndexingError α}
      (earlier : Shift size handle producer log trace (.ended outcome) place)
      (step : Step size place .released after) :
      Shift size handle producer (log ++ [.released]) trace (.ended outcome) after
  | work {log : List (Event IndexMessage)} {trace : List (Exchange dispatching)}
      {phase : ProducerPhase α} {place after : Workplace IndexMessage} {event : Event IndexMessage}
      (earlier : Shift size handle producer log trace phase place)
      (step : Step size place event after) (own : event.IsWorkers handle) :
      Shift size handle producer (log ++ [event]) trace phase after

variable {log : List (Event IndexMessage)} {trace : List (Exchange dispatching)}
variable {phase : ProducerPhase α} {place : Workplace IndexMessage}

/-- What happens in a shift may happen at a workplace. -/
theorem Shift.history (shift : Shift size handle producer log trace phase place) :
    History size log place := by
  induction shift with
  | start => exact .step .start (.hand (.inl rfl))
  | request _ _ ih | late _ _ ih | finish _ ih => exact ih
  | offer _ step ih | answer _ step ih | drop _ step ih | signal _ step ih | release _ step ih
  | work _ step _ ih => exact ih.step step

theorem Shift.yields_of_mem_handled
    (shift : Shift size handle producer log trace phase place) :
    ∀ entry ∈ handled log, ∃ calls, (handle entry.1).Yields calls entry.2 := by
  induction shift with
  | start => simp [handled, Event.handled?]
  | request _ _ ih | late _ _ ih | finish _ ih => exact ih
  | offer _ _ ih | answer _ _ ih | drop _ _ ih | signal _ _ ih | release _ _ ih =>
      simpa [Event.handled?] using ih
  | @work _ _ _ _ _ event _ _ own ih =>
      cases event with
      | finished message outcome =>
          rw [handled_concat, List.forall_mem_append]
          exact ⟨ih, List.forall_mem_singleton.mpr own⟩
      | _ => simpa [Event.handled?] using ih

/-- What a producer has yet to do continues what it has done. -/
def ProducerPhase.Follows (producer : Producer α) (trace : List (Exchange dispatching)) :
    ProducerPhase α → Prop
  | .running rest => ∀ more outcome, rest.Yields more outcome →
      producer.Yields (trace ++ more) outcome
  | .offering message next => ∀ more outcome,
      (Program.ask (.dispatch message) next : Producer α).Yields more outcome →
        producer.Yields (trace ++ more) outcome
  | .leaving outcome | .ended outcome => producer.Yields trace outcome

theorem Shift.follows (shift : Shift size handle producer log trace phase place) :
    ProducerPhase.Follows producer trace phase := by
  induction shift with
  | start => exact fun more outcome run => run
  | request _ reply ih =>
      intro more outcome run
      rw [List.append_assoc]
      exact ih _ _ (Program.yields_ask_iff.mpr ⟨reply, more, rfl, run⟩)
  | answer _ _ ih =>
      intro more outcome run
      rw [List.append_assoc]
      exact ih _ _ (Program.yields_ask_iff.mpr ⟨_, more, rfl, run⟩)
  | @drop _ _ _ _ outcome _ _ ih =>
      have run := ih [] outcome (.done outcome)
      rwa [List.append_nil] at run
  | offer _ _ ih | signal _ _ ih | late _ _ ih | finish _ ih | release _ _ ih | work _ _ _ ih =>
      exact ih

/-- Only a producer that has failed tells the worker to shut down, and it does so last. -/
theorem Shift.failed_of_signalled
    (shift : Shift size handle producer log trace phase place) (signalled : .signalled ∈ log) :
    ∃ error, phase = .ended (.error error) := by
  induction shift with
  | start => simp at signalled
  | signal => exact ⟨_, rfl⟩
  | release _ _ ih => exact ih (by simpa using signalled)
  | @work _ _ _ _ _ event _ _ own ih =>
      rcases List.mem_append.mp signalled with before | now
      · exact ih before
      · obtain rfl := List.mem_singleton.mp now
        exact own.elim
  | request _ _ ih | late _ _ ih | finish _ ih =>
      obtain ⟨error, ended⟩ := ih signalled
      cases ended
  | offer _ _ ih | answer _ _ ih | drop _ _ ih =>
      obtain ⟨error, ended⟩ := ih (by simpa using signalled)
      cases ended

/-- A producer that has not come to an outcome has its dispatcher. -/
def ProducerPhase.IsPresent : ProducerPhase α → Prop
  | .running _ | .offering _ _ => True
  | _ => False

theorem Step.dispatchers_eq {after : Workplace IndexMessage} {event : Event IndexMessage}
    (step : Step size place event after) (own : event.IsWorkers handle) :
    after.dispatchers = place.dispatchers := by
  cases step <;> first | rfl | exact own.elim

theorem Shift.dispatchers_eq (shift : Shift size handle producer log trace phase place)
    (present : ProducerPhase.IsPresent phase) : place.dispatchers = [0] := by
  induction shift with
  | start => rfl
  | request _ _ ih => exact ih trivial
  | offer _ step ih | answer _ step ih =>
      have before := ih trivial
      cases step <;> exact before
  | work _ step own ih => exact (step.dispatchers_eq own).trans (ih present)
  | drop | signal | late | finish | release => exact present.elim

/-- The channel is open as long as the producer has its dispatcher. -/
theorem Shift.closed_eq_false (shift : Shift size handle producer log trace phase place)
    (present : ProducerPhase.IsPresent phase) : place.closed = false := by
  rw [shift.history.kept.shut]
  by_contra returned
  have stopped : hasStopped place.phase = true := by
    cases state : place.phase <;> simp_all [isOver, hasStopped]
  rcases shift.history.grounded.reason stopped with signalled | deserted
  · obtain ⟨error, rfl⟩ := shift.failed_of_signalled signalled
    exact present
  · have empty := deserted.dispatchers
    rw [shift.dispatchers_eq present] at empty
    cases empty

theorem Shift.reply_eq_ok {message : IndexMessage} {next : Except IndexingError Unit → Producer α}
    {after : Workplace IndexMessage} {reply : Except IndexingError Unit}
    (shift : Shift size handle producer log trace (.offering message next) place)
    (step : Step size place (.dispatched 0 message reply) after) : reply = .ok () := by
  cases step with
  | accept => rfl
  | refuse _ shut =>
      rw [shift.closed_eq_false trivial] at shut
      cases shut

/-- The messages that are handed over are those that the channel takes. -/
theorem Shift.accepted_eq (shift : Shift size handle producer log trace phase place) :
    accepted log = trace.filterMap Producer.accepted? := by
  induction shift with
  | start => rfl
  | request _ _ ih | offer _ _ ih | drop _ _ ih | signal _ _ ih | release _ _ ih =>
      simpa [Event.accepted?, Producer.accepted?, List.filterMap_cons] using ih
  | late _ _ ih | finish _ ih => exact ih
  | answer shift step ih =>
      obtain rfl := shift.reply_eq_ok step
      rw [accepted_concat, List.filterMap_append, ih]
      rfl
  | @work _ _ _ _ _ event _ _ own ih =>
      rw [accepted_concat, ih]
      cases event with
      | dispatched => exact own.elim
      | _ => exact List.append_nil _

end Workplace

/-- A dispatch that an exchange is about is not refused. -/
def Producer.IsGranted : Exchange dispatching → Prop
  | ⟨.service _, _⟩ => True
  | ⟨.dispatch _, reply⟩ => reply = .ok ()

namespace Workplace

variable {α : Type} {size : Nat} {handle : IndexMessage → Task Bool} {producer : Producer α}
variable {log : List (Event IndexMessage)} {trace : List (Exchange dispatching)}
variable {phase : ProducerPhase α} {place : Workplace IndexMessage}

theorem Shift.granted (shift : Shift size handle producer log trace phase place) :
    ∀ exchange ∈ trace, Producer.IsGranted exchange := by
  induction shift with
  | start => simp
  | offer _ _ ih | drop _ _ ih | signal _ _ ih | late _ _ ih | finish _ ih | release _ _ ih
  | work _ _ _ ih => exact ih
  | request _ _ ih =>
      exact List.forall_mem_append.mpr ⟨ih, List.forall_mem_singleton.mpr trivial⟩
  | answer shift step ih =>
      exact List.forall_mem_append.mpr
        ⟨ih, List.forall_mem_singleton.mpr (shift.reply_eq_ok step)⟩

/-- When a producer has succeeded and its worker is gone, the worker has handled every message that
was handed over, in this order, has counted each outcome and has abandoned nothing. -/
theorem Shift.handles_all {result : α} {summary : WorkerSummary}
    (shift : Shift size handle producer log trace (.ended (.ok result)) place)
    (gone : place.phase = .gone summary) :
    (handled log).map Prod.fst = trace.filterMap Producer.accepted? ∧
      summary = Worker.tally (outcomes log) := by
  have kept := shift.history.kept
  have stopped : hasStopped place.phase = true := by rw [gone]; rfl
  rcases shift.history.grounded.reason stopped with signalled | deserted
  · obtain ⟨error, ended⟩ := shift.failed_of_signalled signalled
    cases ended
  · have tracks := kept.tracks
    have balanced := kept.balanced
    rw [gone] at tracks
    rw [Balanced, deserted.cleared, deserted.queue, List.append_nil, List.append_nil] at balanced
    obtain ⟨counted, once⟩ := tracks
    refine ⟨by rw [once, ← balanced, shift.accepted_eq], ?_⟩
    rw [counted, deserted.cleared, Worker.tally_eq]
    rfl

end Workplace
end LearningIndex
