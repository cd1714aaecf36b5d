import LearningIndex.Proofs.Program.Transcript
import LearningIndex.Proofs.Worker.Account

/-!
# Runs of a worker as histories

The program that runs a worker on a channel to which nothing is added does what may happen at a
workplace.  So its summary accounts for all messages that were in the channel.
-/

namespace LearningIndex

namespace Workplace

variable {μ : Type} {size : Nat} {log : List (Event μ)}

/-- A workplace whose worker is free, where no dispatcher waits for the channel. -/
def ready (dispatchers : List Nat) (sent : Nat) (queue : List μ) (summary : WorkerSummary) :
    Workplace μ :=
  ⟨dispatchers, [], queue, false, ⟨sent, 1, true⟩, .free summary⟩

section Moves

variable {dispatchers : List Nat} {sent : Nat} {queue : List μ} {summary : WorkerSummary}

theorem history_ready : History size [.handed, .begun] (ready [0] 0 ([] : List μ) {}) := by
  have handed : History size [.handed] ⟨[0], [], ([] : List μ), false, ⟨0, 1, true⟩, .created⟩ :=
    .step .start (.hand (.inl rfl))
  exact handed.step (.begin rfl)

theorem History.send (history : History size log (ready [0] 0 queue summary)) (message : μ)
    (room : queue.length < Worker.capacity size) :
    History size (log ++ [.offered 0 message, .dispatched 0 message (.ok ())])
      (ready [0] 0 (queue ++ [message]) summary) := by
  have offered : History size (log ++ [.offered 0 message])
      ⟨[0], [(0, message)], queue, false, ⟨0, 1, true⟩, .free summary⟩ :=
    history.step (.offer message (List.mem_singleton_self 0))
  rw [List.append_cons]
  exact offered.step (@Step.accept _ size _ 0 message [] [] rfl rfl room)

theorem History.handle {message : μ}
    (history : History size log (ready dispatchers 0 (message :: queue) summary))
    (outcome : Except IndexingError Bool) :
    History size (log ++ [.looked, .taken message, .finished message outcome])
      (ready dispatchers 0 queue (summary.count outcome)) := by
  have looked : History size (log ++ [.looked])
      ⟨dispatchers, [], message :: queue, false, ⟨0, 1, true⟩, .receiving summary⟩ :=
    history.step (.look rfl rfl)
  have taken : History size (log ++ [.looked] ++ [.taken message])
      ⟨dispatchers, [], queue, false, ⟨0, 1, true⟩, .busy message summary⟩ :=
    looked.step (.take rfl rfl)
  rw [List.append_cons, List.append_cons]
  exact taken.step (@Step.finish _ size _ summary message outcome rfl)

theorem History.drop (history : History size log (ready [0] 0 queue summary)) :
    History size (log ++ [.dropped 0]) (ready [] 0 queue summary) :=
  history.step (.drop (List.mem_singleton_self 0) (by rintro _ ⟨⟩))

theorem History.signal (history : History size log (ready dispatchers 0 queue summary)) :
    History size (log ++ [.signalled]) (ready dispatchers 1 queue summary) :=
  history.step (.signal Nat.one_pos (by rintro _ ⟨⟩))

theorem History.clear {signals : Signals} {left : List μ}
    (history : History size log ⟨dispatchers, [], queue, true, signals, .clearing summary left⟩) :
    History size (log ++ queue.map .cleared)
      ⟨dispatchers, [], [], true, signals, .clearing summary (left ++ queue)⟩ := by
  induction queue generalizing log left with
  | nil => simpa using history
  | cons message rest ih =>
      have first : History size (log ++ [.cleared message])
          ⟨dispatchers, [], rest, true, signals, .clearing summary (left ++ [message])⟩ :=
        history.step (@Step.clear _ size _ summary left rest message rfl rfl)
      rw [List.map_cons, List.append_cons, List.append_cons left]
      exact ih first

theorem History.leave (history : History size log
      ⟨dispatchers, [], queue, false, ⟨sent, 1, true⟩, .stopped summary⟩) :
    History size (log ++ (.closed :: queue.map .cleared ++ [.returned (summary.abandon queue)]))
      ⟨dispatchers, [], [], true, ⟨sent, 1, false⟩, .gone (summary.abandon queue)⟩ := by
  have closed : History size (log ++ [.closed])
      ⟨dispatchers, [], queue, true, ⟨sent, 1, true⟩, .clearing summary []⟩ :=
    history.step (.close rfl)
  have departed := closed.clear.step (@Step.depart _ size _ summary queue rfl rfl)
  simpa using departed

theorem History.abandon_nil (history : History size log (ready dispatchers sent queue summary)) :
    summary.abandon ([] : List μ) = summary := by
  obtain ⟨counted, _⟩ := history.kept.tracks
  rw [counted, Worker.tally_eq]
  rfl

theorem History.isTold {place : Workplace μ} {told : Bool} (history : History size log place)
    (gone : place.phase = .gone summary) (sent : place.signals.sent = told.toNat)
    (abandoned : 0 < summary.abandoned) : told = true := by
  have signalled := history.heard.sent.mpr ((history.accounts gone).signalled abandoned)
  rw [sent] at signalled
  exact Bool.toNat_eq_one.mp (Nat.le_antisymm (Bool.toNat_le told) signalled)

theorem accepted_append (log more : List (Event μ)) :
    accepted (log ++ more) = accepted log ++ accepted more :=
  List.filterMap_append

theorem accepted_map_cleared (messages : List μ) :
    accepted (messages.map (Event.cleared (μ := μ))) = [] :=
  List.filterMap_eq_nil_iff.mpr (by simp [Event.accepted?])

end Moves

section Programs

variable {σ : Type} (serve : (request : Service.Request) → σ → Service.Reply request × σ)
variable {dispatchers : List Nat} {queue : List μ} {summary : WorkerSummary}

/-- A worker handles messages one after the other as they are sent. -/
theorem exists_history_feed (handle : μ → Task Bool) (messages : List μ)
    (history : History size log (ready [0] 0 [] summary)) (world : σ) :
    ∃ total after events,
      (Worker.drain handle messages summary).run serve world = (.ok total, after) ∧
        accepted events = messages ∧ History size (log ++ events) (ready [0] 0 [] total) := by
  induction messages generalizing log summary world with
  | nil => exact ⟨summary, world, [], rfl, rfl, by rwa [List.append_nil]⟩
  | cons message rest ih =>
      have room : ([] : List μ).length < Worker.capacity size := Nat.le_max_right size 1
      obtain ⟨total, after, events, ran, accepts, reached⟩ :=
        ih ((history.send message room).handle ((handle message).run serve world).1)
          ((handle message).run serve world).2
      rw [List.append_assoc, List.append_assoc] at reached
      refine ⟨total, after, _, ?_, ?_, reached⟩
      · simp only [Worker.drain, Program.bind_eq_andThen, Program.run_attempt_andThen]
        exact ran
      · exact congrArg (message :: ·) accepts

/-- A worker that nobody feeds any more leaves. -/
theorem History.retire {total : WorkerSummary} (history : History size log (ready [0] 0 [] total)) :
    ∃ events place, accepted events = [] ∧ History size (log ++ events) place ∧
      place.phase = .gone total ∧ place.signals.sent = 0 := by
  have looked : History size (log ++ [.dropped 0] ++ [.looked])
      ⟨[], [], [], false, ⟨0, 1, true⟩, .receiving total⟩ :=
    history.drop.step (.look rfl rfl)
  have stopped : History size (log ++ [.dropped 0] ++ [.looked] ++ [.stopped])
      ⟨[], [], [], false, ⟨0, 1, true⟩, .stopped total⟩ :=
    looked.step (.stop rfl rfl)
  have left := stopped.leave
  rw [history.abandon_nil, List.append_assoc, List.append_assoc, List.append_assoc] at left
  exact ⟨_, _, rfl, left, rfl, rfl⟩

/-- A worker that is told to shut down leaves what is in its channel. -/
theorem History.quit (history : History size log (ready dispatchers 0 queue summary)) :
    ∃ events place, accepted events = [] ∧ History size (log ++ events) place ∧
      place.phase = .gone (summary.abandon queue) ∧ place.signals.sent = 1 := by
  have stopped : History size (log ++ [.signalled] ++ [.stopped])
      ⟨dispatchers, [], queue, false, ⟨1, 1, true⟩, .stopped summary⟩ :=
    history.signal.step (.heed rfl rfl)
  have left := stopped.leave
  rw [List.append_assoc, List.append_assoc] at left
  refine ⟨_, _, ?_, left, rfl, rfl⟩
  change accepted (queue.map .cleared ++ [.returned (summary.abandon queue)]) = []
  rw [accepted_concat, accepted_map_cleared]
  rfl

theorem History.fill (history : History size log (ready [0] 0 queue summary)) (messages : List μ)
    (fits : queue.length + messages.length ≤ Worker.capacity size) :
    ∃ events, accepted events = messages ∧
      History size (log ++ events) (ready [0] 0 (queue ++ messages) summary) := by
  induction messages generalizing log queue with
  | nil => exact ⟨[], rfl, by simpa using history⟩
  | cons message rest ih =>
      rw [List.length_cons] at fits
      obtain ⟨events, accepts, reached⟩ :=
        ih (history.send message (by omega)) (by rw [List.length_append]; simp; omega)
      rw [List.append_assoc] at reached
      rw [List.append_cons]
      refine ⟨_, ?_, reached⟩
      exact congrArg (message :: ·) accepts

/-- A worker on a channel to which nothing is added is one at a workplace where its messages are
accepted, with a signal before its first turn if it is to shut down. -/
theorem exists_history_run (handle : μ → Task Bool) (messages : List μ) (shutdown : Bool)
    (fits : shutdown = true → messages.length ≤ Worker.capacity size) (world : σ) :
    ∃ total after log place,
      (Worker.run handle messages shutdown).run serve world = (.ok total, after) ∧
        accepted log = messages ∧ History size log place ∧ place.phase = .gone total ∧
          place.signals.sent = shutdown.toNat := by
  have begun : History size [.handed, .begun] (ready [0] 0 ([] : List μ) {}) := history_ready
  cases shutdown with
  | true =>
      obtain ⟨sent, accepts, filled⟩ := begun.fill messages (by simpa using fits rfl)
      obtain ⟨events, place, unaccepted, reached, gone, signalled⟩ := filled.quit
      refine ⟨_, world, _, place, rfl, ?_, reached, gone, signalled⟩
      rw [accepted_append, accepted_append, accepts, unaccepted, List.append_nil]
      rfl
  | false =>
      obtain ⟨total, after, fed, ran, accepts, served⟩ :=
        exists_history_feed serve handle messages begun world
      obtain ⟨events, place, unaccepted, reached, gone, unsignalled⟩ := served.retire
      refine ⟨total, after, _, place, ?_, ?_, reached, gone, unsignalled⟩
      · cases messages <;> exact ran
      · rw [accepted_append, accepted_append, accepts, unaccepted, List.append_nil]
        rfl

/-- A worker counts each message of its channel once, and abandons some only if it is to shut
down. -/
theorem run_accounts (handle : μ → Task Bool) (messages : List μ) (shutdown : Bool) (world : σ) :
    ∃ total after, (Worker.run handle messages shutdown).run serve world = (.ok total, after) ∧
      total.total = messages.length ∧ total.degraded ≤ total.handled ∧
        (0 < total.abandoned → shutdown = true) := by
  have fits : shutdown = true → messages.length ≤ Worker.capacity messages.length :=
    fun _ => Nat.le_max_left _ _
  obtain ⟨total, after, log, place, ran, accepts, history, gone, sent⟩ :=
    exists_history_run serve handle messages shutdown fits world
  have accounts := history.accounts gone
  exact ⟨total, after, ran, accepts ▸ accounts.total, accounts.degraded_le,
    history.isTold gone sent⟩

end Programs

end Workplace
end LearningIndex
