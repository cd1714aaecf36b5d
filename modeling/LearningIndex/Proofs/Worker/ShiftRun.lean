import LearningIndex.Proofs.Worker.Realization
import LearningIndex.Proofs.Worker.Shift

/-!
# Runs of a producer and its worker as shifts

The program that runs a producer and a worker one step after the other is one of the shifts of the
two: the producer goes on until the channel is full, and the worker handles what is left in the end.
In this shift the handling of each message comes to what the server of the program lets it come to.
-/

namespace LearningIndex

namespace Workplace

variable {α : Type} {size : Nat} {handle : IndexMessage → Task Bool} {producer : Producer α}
variable {σ : Type} (serve : (request : Service.Request) → σ → Service.Reply request × σ)

/-- The handling of a message comes to an outcome when a server in some state answers it. -/
def IsServed (handle : IndexMessage → Task Bool)
    (entry : IndexMessage × Except IndexingError Bool) : Prop :=
  ∃ world, ((handle entry.1).run serve world).1 = entry.2

/-- A shift in which a server answers the handling of messages can come so far. -/
def Attains (size : Nat) (handle : IndexMessage → Task Bool) (producer : Producer α)
    (trace : List (Exchange dispatching)) (phase : ProducerPhase α)
    (place : Workplace IndexMessage) : Prop :=
  ∃ log, Shift size handle producer log trace phase place ∧
    ∀ entry ∈ handled log, IsServed serve handle entry

section Moves

variable {serve} {trace trace' : List (Exchange dispatching)} {phase phase' : ProducerPhase α}
variable {dispatchers : List Nat} {sent : Nat} {queue : List IndexMessage}
variable {summary : WorkerSummary} {place after : Workplace IndexMessage}

/-- Whatever is no end of the handling of a message may happen next. -/
theorem Attains.next {event : Event IndexMessage} (unhandled : event.handled? = none)
    (attains : Attains serve size handle producer trace phase place)
    (step : ∀ {log}, Shift size handle producer log trace phase place →
      Shift size handle producer (log ++ [event]) trace' phase' after) :
    Attains serve size handle producer trace' phase' after := by
  obtain ⟨log, shift, served⟩ := attains
  exact ⟨_, step shift, by simpa [unhandled] using served⟩

theorem Attains.work {event : Event IndexMessage}
    (attains : Attains serve size handle producer trace phase place)
    (step : Step size place event after) (own : event.IsWorkers handle)
    (unhandled : event.handled? = none) :
    Attains serve size handle producer trace phase after :=
  attains.next unhandled fun shift => shift.work step own

theorem attains_ready :
    Attains serve size handle producer [] (.running producer) (ready [0] 0 [] {}) := by
  have started : Attains serve size handle producer [] (.running producer) staffed :=
    ⟨_, .start, by simp [handled, Event.handled?]⟩
  exact started.work (.begin rfl) trivial rfl

theorem Attains.offer {message : IndexMessage} {next : Except IndexingError Unit → Producer α}
    (attains : Attains serve size handle producer trace (.running (.ask (.dispatch message) next))
      (ready [0] 0 queue summary)) :
    Attains serve size handle producer trace (.offering message next)
      ⟨[0], [(0, message)], queue, false, ⟨0, 1, true⟩, .free summary⟩ :=
  attains.next rfl fun shift => shift.offer (.offer message (List.mem_singleton_self 0))

theorem Attains.accept {message : IndexMessage} {next : Except IndexingError Unit → Producer α}
    (attains : Attains serve size handle producer trace (.offering message next)
      ⟨[0], [(0, message)], queue, false, ⟨0, 1, true⟩, .free summary⟩)
    (room : queue.length < Worker.capacity size) :
    Attains serve size handle producer (trace ++ [Producer.handed message])
      (.running (next (.ok ()))) (ready [0] 0 (queue ++ [message]) summary) :=
  attains.next rfl fun shift =>
    shift.answer (@Step.accept _ size _ 0 message [] [] rfl rfl room)

theorem Attains.treat {offers : List (Nat × IndexMessage)} {message : IndexMessage}
    (attains : Attains serve size handle producer trace phase
      ⟨dispatchers, offers, message :: queue, false, ⟨0, 1, true⟩, .free summary⟩) (world : σ) :
    Attains serve size handle producer trace phase
      ⟨dispatchers, offers, queue, false, ⟨0, 1, true⟩,
        .free (summary.count ((handle message).run serve world).1)⟩ := by
  have looked : Attains serve size handle producer trace phase
      ⟨dispatchers, offers, message :: queue, false, ⟨0, 1, true⟩, .receiving summary⟩ :=
    attains.work (.look rfl rfl) trivial rfl
  have taken : Attains serve size handle producer trace phase
      ⟨dispatchers, offers, queue, false, ⟨0, 1, true⟩, .busy message summary⟩ :=
    looked.work (.take rfl rfl) trivial rfl
  obtain ⟨log, shift, served⟩ := taken
  refine ⟨_, shift.work (@Step.finish _ size _ summary message _ rfl)
    ⟨_, Program.yields_transcript serve (handle message) world⟩, ?_⟩
  rw [handled_concat, List.forall_mem_append]
  exact ⟨served, List.forall_mem_singleton.mpr ⟨world, rfl⟩⟩

theorem Attains.clear {signals : Signals} {left : List IndexMessage}
    (attains : Attains serve size handle producer trace phase
      ⟨dispatchers, [], queue, true, signals, .clearing summary left⟩) :
    Attains serve size handle producer trace phase
      ⟨dispatchers, [], [], true, signals, .clearing summary (left ++ queue)⟩ := by
  induction queue generalizing left with
  | nil => rwa [List.append_nil]
  | cons message rest ih =>
      rw [List.append_cons]
      exact ih (attains.work (@Step.clear _ size _ summary left rest message rfl rfl) trivial rfl)

theorem Attains.leave (attains : Attains serve size handle producer trace phase
      ⟨dispatchers, [], queue, false, ⟨sent, 1, true⟩, .stopped summary⟩) :
    ∃ place, Attains serve size handle producer trace phase place ∧
      place.phase = .gone (summary.abandon queue) := by
  have closed : Attains serve size handle producer trace phase
      ⟨dispatchers, [], queue, true, ⟨sent, 1, true⟩, .clearing summary []⟩ :=
    attains.work (.close rfl) trivial rfl
  exact ⟨_, closed.clear.work (@Step.depart _ size _ summary queue rfl rfl) trivial rfl, rfl⟩

theorem Attains.quit (attains : Attains serve size handle producer trace phase
      (ready dispatchers 1 queue summary)) :
    ∃ place, Attains serve size handle producer trace phase place ∧
      place.phase = .gone (summary.abandon queue) := by
  have stopped : Attains serve size handle producer trace phase
      ⟨dispatchers, [], queue, false, ⟨1, 1, true⟩, .stopped summary⟩ :=
    attains.work (.heed rfl rfl) trivial rfl
  exact stopped.leave

theorem Attains.retire (attains : Attains serve size handle producer trace phase
      (ready [] 0 [] summary)) :
    ∃ place, Attains serve size handle producer trace phase place ∧
      place.phase = .gone (summary.abandon ([] : List IndexMessage)) := by
  have looked : Attains serve size handle producer trace phase
      ⟨[], [], [], false, ⟨0, 1, true⟩, .receiving summary⟩ :=
    attains.work (.look rfl rfl) trivial rfl
  have stopped : Attains serve size handle producer trace phase
      ⟨[], [], [], false, ⟨0, 1, true⟩, .stopped summary⟩ :=
    looked.work (.stop rfl rfl) trivial rfl
  exact stopped.leave

theorem Attains.drop {outcome : Except IndexingError α}
    (attains : Attains serve size handle producer trace (.running (.done outcome))
      (ready [0] 0 queue summary)) :
    Attains serve size handle producer trace (.leaving outcome) (ready [] 0 queue summary) :=
  attains.next rfl fun shift => shift.drop (.drop (List.mem_singleton_self 0) (by rintro _ ⟨⟩))

theorem Attains.abandon_nil (attains : Attains serve size handle producer trace phase
      (ready dispatchers 0 queue summary)) :
    summary.abandon ([] : List IndexMessage) = summary := by
  obtain ⟨log, shift, -⟩ := attains
  exact shift.history.abandon_nil

end Moves

section Programs

variable {serve} {trace : List (Exchange dispatching)} {phase : ProducerPhase α}
variable {dispatchers : List Nat} {queue : List IndexMessage} {summary : WorkerSummary}

/-- The worker handles the messages that are in its channel. -/
theorem Attains.drain (attains : Attains serve size handle producer trace phase
      (ready dispatchers 0 queue summary)) (world : σ) :
    ∃ total after, (Worker.drain handle queue summary).run serve world = (.ok total, after) ∧
      Attains serve size handle producer trace phase (ready dispatchers 0 [] total) := by
  induction queue generalizing summary world with
  | nil => exact ⟨summary, world, rfl, attains⟩
  | cons message rest ih =>
      obtain ⟨total, after, ran, drained⟩ :=
        ih (attains.treat world) ((handle message).run serve world).2
      refine ⟨total, after, ?_, drained⟩
      simp only [Worker.drain, Program.bind_eq_andThen, Program.run_attempt_andThen]
      exact ran

/-- What is left of a producer and its worker, run one step after the other, brings their shift to
its end. -/
theorem Attains.exists_end {rest : Producer α}
    (attains : Attains serve size handle producer trace (.running rest)
      (ready [0] 0 queue summary)) (world : σ) :
    ∃ outcome total after trace' place,
      (rest.withWorker (Worker.capacity size) handle queue summary).run serve world =
          (.ok (outcome, total), after) ∧
        Attains serve size handle producer trace' (.ended outcome) place ∧
        place.phase = .gone total := by
  induction rest generalizing queue summary trace world with
  | done outcome =>
      cases outcome with
      | error error =>
          have signalled : Attains serve size handle producer trace (.ended (.error error))
              (ready [] 1 queue summary) :=
            attains.drop.next rfl fun shift =>
              shift.signal (.signal Nat.one_pos (by rintro _ ⟨⟩))
          obtain ⟨place, left, gone⟩ := signalled.quit
          exact ⟨.error error, _, world, trace, place, rfl, left, gone⟩
      | ok result =>
          obtain ⟨log, shift, served⟩ := attains.drop
          have finished : Attains serve size handle producer trace (.ended (.ok result))
              (ready [] 0 queue summary) := ⟨log, shift.finish, served⟩
          obtain ⟨total, after, ran, drained⟩ := finished.drain world
          obtain ⟨place, left, gone⟩ := drained.retire
          rw [drained.abandon_nil] at gone
          refine ⟨.ok result, total, after, trace, place, ?_, left, gone⟩
          rw [Producer.withWorker, Program.bind_eq_andThen, Program.run_andThen_of_ok ran]
          rfl
  | ask request next ih =>
      cases request with
      | service request =>
          obtain ⟨log, shift, served⟩ := attains
          exact ih _ ⟨log, shift.request (serve request world).1, served⟩ (serve request world).2
      | dispatch message =>
          by_cases room : queue.length < Worker.capacity size
          · obtain ⟨outcome, total, after, trace', place, ran, ended⟩ :=
              ih (.ok ()) (attains.offer.accept room) world
            refine ⟨outcome, total, after, trace', place, ?_, ended⟩
            simp only [Producer.withWorker, if_pos room]
            exact ran
          · cases queue with
            | nil => exact absurd (Nat.le_max_right size 1) room
            | cons oldest rest =>
                -- The message waits until the worker has handled the oldest one.
                have fits : (oldest :: rest).length ≤ Worker.capacity size := by
                  obtain ⟨log, shift, -⟩ := attains
                  exact shift.history.length_queue_le
                obtain ⟨outcome, total, after, trace', place, ran, ended⟩ :=
                  ih (.ok ()) ((attains.offer.treat world).accept fits)
                    ((handle oldest).run serve world).2
                refine ⟨outcome, total, after, trace', place, ?_, ended⟩
                simp only [Producer.withWorker, if_neg room, Program.run_attempt_andThen]
                exact ran

/-- A producer and its worker, run one step after the other, are a shift of the two, in which the
server answers the handling of each message. -/
theorem exists_shift_withWorker
    (serve : (request : Service.Request) → σ → Service.Reply request × σ) (size : Nat)
    (handle : IndexMessage → Task Bool) (producer : Producer α) (world : σ) :
    ∃ outcome summary after log trace place,
      (producer.withWorker (Worker.capacity size) handle [] {}).run serve world =
          (.ok (outcome, summary), after) ∧
        Shift size handle producer log trace (.ended outcome) place ∧
          place.phase = .gone summary ∧ ∀ entry ∈ handled log, IsServed serve handle entry := by
  obtain ⟨outcome, summary, after, trace, place, ran, ⟨log, shift, served⟩, gone⟩ :=
    (attains_ready : Attains serve size handle producer [] _ _).exists_end world
  exact ⟨outcome, summary, after, log, trace, place, ran, shift, gone, served⟩

/-- A worker beside a producer counts each message that the producer hands over once, and abandons
some only if the producer fails. -/
theorem withWorker_accounts
    (serve : (request : Service.Request) → σ → Service.Reply request × σ) (size : Nat)
    (handle : IndexMessage → Task Bool) (producer : Producer α) (world : σ) :
    ∃ result total after trace,
      (producer.withWorker (Worker.capacity size) handle [] {}).run serve world =
          (.ok (result, total), after) ∧
        producer.Yields trace result ∧
          total.total = (trace.filterMap Producer.accepted?).length ∧
            total.degraded ≤ total.handled ∧ (0 < total.abandoned → result.isOk = false) := by
  obtain ⟨result, total, after, log, trace, place, ran, shift, gone, -⟩ :=
    exists_shift_withWorker serve size handle producer world
  have accounts := shift.history.accounts gone
  refine ⟨result, total, after, trace, ran, shift.follows, shift.accepted_eq ▸ accounts.total,
    accounts.degraded_le, fun abandoned => ?_⟩
  obtain ⟨error, ended⟩ := shift.failed_of_signalled (accounts.signalled abandoned)
  cases ended
  rfl

end Programs

end Workplace
end LearningIndex
