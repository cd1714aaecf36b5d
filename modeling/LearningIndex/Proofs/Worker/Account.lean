import LearningIndex.Proofs.Worker.Workplace

/-!
# What a worker accounts for

Whatever dispatchers, handles and the worker do, and in whatever order, the worker handles each
message that it takes once, in the order in which the channel took them, and each accepted message
is in the channel, was taken or was cleared away.  After a signal nothing is taken but by a worker
that has looked at the signals before, and without a signal the worker stops only if all dispatchers
are gone and nothing is left.  So the summary of a worker accounts for every message that was
accepted.
-/

namespace LearningIndex

namespace Workplace

variable {μ : Type} {size : Nat} {log : List (Event μ)} {place after : Workplace μ}
variable {event : Event μ}

section Log

theorem filterMap_concat {α β : Type} (select : α → Option β) (items : List α) (item : α) :
    (items ++ [item]).filterMap select = items.filterMap select ++ (select item).toList := by
  rw [List.filterMap_append, List.filterMap_cons, List.filterMap_nil]
  cases select item <;> rfl

@[simp]
theorem accepted_concat (log : List (Event μ)) (event : Event μ) :
    accepted (log ++ [event]) = accepted log ++ event.accepted?.toList :=
  filterMap_concat _ log event

@[simp]
theorem taken_concat (log : List (Event μ)) (event : Event μ) :
    taken (log ++ [event]) = taken log ++ event.taken?.toList :=
  filterMap_concat _ log event

@[simp]
theorem handled_concat (log : List (Event μ)) (event : Event μ) :
    handled (log ++ [event]) = handled log ++ event.handled?.toList :=
  filterMap_concat _ log event

@[simp]
theorem outcomes_concat (log : List (Event μ)) (event : Event μ) :
    outcomes (log ++ [event]) = outcomes log ++ event.handled?.toList.map Prod.snd := by
  rw [outcomes, handled_concat, List.map_append, outcomes]

@[simp]
theorem cleared_concat (log : List (Event μ)) (event : Event μ) :
    cleared (log ++ [event]) = cleared log ++ event.cleared?.toList :=
  filterMap_concat _ log event

end Log

section Receiving

variable {mailbox : Mailbox μ}

theorem receive_eq_take_iff {message : μ} {rest : List μ} :
    mailbox.receive = .take message rest ↔ mailbox.queue = message :: rest := by
  unfold Mailbox.receive
  cases mailbox.queue <;> cases mailbox.closed <;> simp

theorem receive_eq_stop_iff :
    mailbox.receive = .stop ↔ mailbox.closed = true ∧ mailbox.queue = [] := by
  unfold Mailbox.receive
  cases mailbox.queue <;> cases mailbox.closed <;> simp

end Receiving

/-- A channel never holds more messages than it has room for. -/
theorem History.length_queue_le (history : History size log place) :
    place.queue.length ≤ Worker.capacity size := by
  induction history with
  | start => exact Nat.zero_le _
  | step _ next ih =>
      cases next with
      | accept _ _ room =>
          rw [List.length_append]
          exact room
      | take _ turn =>
          have queued : Workplace.queue _ = _ := receive_eq_take_iff.mp turn
          rw [queued] at ih
          exact (Nat.le_succ _).trans ih
      | clear clearing queued =>
          rw [queued] at ih
          exact (Nat.le_succ _).trans ih
      | _ => exact ih

section Kept

/-- What the phase of a worker says about what it has done. -/
def Tracks (log : List (Event μ)) : WorkerPhase μ → Prop
  | .created => taken log = [] ∧ handled log = [] ∧ cleared log = []
  | .free summary | .receiving summary | .stopped summary =>
    summary = Worker.tally (outcomes log) ∧ (handled log).map Prod.fst = taken log ∧
      cleared log = []
  | .busy message summary =>
    summary = Worker.tally (outcomes log) ∧ (handled log).map Prod.fst ++ [message] = taken log ∧
      cleared log = []
  | .clearing summary left =>
    summary = Worker.tally (outcomes log) ∧ (handled log).map Prod.fst = taken log ∧
      cleared log = left
  | .gone summary =>
    summary = (Worker.tally (outcomes log)).abandon (cleared log) ∧
      (handled log).map Prod.fst = taken log

/-- The worker has closed the channel. -/
def isOver : WorkerPhase μ → Bool
  | .clearing _ _ | .gone _ => true
  | _ => false

/-- Each accepted message was taken or cleared away, or is in the channel. -/
def Balanced (log : List (Event μ)) (queue : List μ) : Prop :=
  accepted log = taken log ++ cleared log ++ queue

/-- No message is lost. -/
structure Kept (log : List (Event μ)) (place : Workplace μ) : Prop where
  /-- Each accepted message is somewhere. -/
  balanced : Balanced log place.queue
  tracks : Tracks log place.phase
  /-- The worker closes the channel before it clears it. -/
  shut : place.closed = isOver place.phase
  /-- The channel is empty when the worker is gone. -/
  empty : ∀ summary, place.phase = .gone summary → place.queue = []

theorem Balanced.concat {queue : List μ} (balanced : Balanced log queue)
    (unaccepted : event.accepted? = none) (untaken : event.taken? = none)
    (uncleared : event.cleared? = none) : Balanced (log ++ [event]) queue := by
  simpa [Balanced, unaccepted, untaken, uncleared] using balanced

theorem Tracks.concat {phase : WorkerPhase μ} (tracks : Tracks log phase)
    (untaken : event.taken? = none) (unhandled : event.handled? = none)
    (uncleared : event.cleared? = none) : Tracks (log ++ [event]) phase := by
  cases phase <;> simpa [Tracks, untaken, unhandled, uncleared] using tracks

theorem kept_start : Kept [] (start : Workplace μ) :=
  ⟨rfl, ⟨rfl, rfl, rfl⟩, rfl, by simp [start]⟩

theorem Kept.step (kept : Kept log place) (next : Step size place event after) :
    Kept (log ++ [event]) after := by
  obtain ⟨balanced, tracks, shut, empty⟩ := kept
  cases next with
  | offer | refuse | withdraw | clone | drop | hand | release | signal =>
      exact ⟨balanced.concat rfl rfl rfl, tracks.concat rfl rfl rfl, shut, empty⟩
  | @accept _ message _ _ offered opened room =>
      refine ⟨?_, tracks.concat rfl rfl rfl, shut, fun summary gone => ?_⟩
      · rw [Balanced] at balanced
        simp [Balanced, balanced, Event.accepted?, Event.taken?, Event.cleared?]
      · rw [opened, gone] at shut
        cases shut
  | begin created =>
      rw [created] at tracks shut
      obtain ⟨untaken, undone, unclear⟩ := tracks
      have fresh : Tracks log (.free {} : WorkerPhase μ) :=
        ⟨by rw [outcomes, undone]; rfl, by rw [untaken, undone]; rfl, unclear⟩
      exact ⟨balanced.concat rfl rfl rfl, fresh.concat rfl rfl rfl, shut, by simp⟩
  | look free =>
      rw [free] at tracks shut
      have receiving : Tracks log (.receiving _ : WorkerPhase μ) := tracks
      exact ⟨balanced.concat rfl rfl rfl, receiving.concat rfl rfl rfl, shut, by simp⟩
  | wait receiving =>
      rw [receiving] at tracks shut
      have free : Tracks log (.free _ : WorkerPhase μ) := tracks
      exact ⟨balanced.concat rfl rfl rfl, free.concat rfl rfl rfl, shut, by simp⟩
  | take receiving turn =>
      rw [receiving] at tracks shut
      obtain ⟨counted, once, unclear⟩ := tracks
      have queued : place.queue = _ := receive_eq_take_iff.mp turn
      -- What leaves the queue joins the messages that were taken, so the balance stands.
      rw [Balanced, queued, unclear] at balanced
      refine ⟨?_, ⟨?_, ?_, ?_⟩, shut, by simp⟩
      · simp [Balanced, balanced, unclear, Event.accepted?, Event.taken?, Event.cleared?]
      · simpa [Event.handled?] using counted
      · simp [Event.handled?, Event.taken?, once]
      · simpa [Event.cleared?] using unclear
  | finish outcome busy =>
      rw [busy] at tracks shut
      obtain ⟨counted, once, unclear⟩ := tracks
      refine ⟨balanced.concat rfl rfl rfl, ⟨?_, ?_, ?_⟩, shut, by simp⟩
      · rw [outcomes_concat, counted]
        exact (Worker.tally_append _ outcome).symm
      · simpa [Event.handled?, Event.taken?] using once
      · simpa [Event.cleared?] using unclear
  | heed phase | stop phase =>
      rw [phase] at tracks shut
      have stopped : Tracks log (.stopped _ : WorkerPhase μ) := tracks
      exact ⟨balanced.concat rfl rfl rfl, stopped.concat rfl rfl rfl, shut, by simp⟩
  | close stopped =>
      rw [stopped] at tracks
      have clearing : Tracks log (.clearing _ [] : WorkerPhase μ) := tracks
      exact ⟨balanced.concat rfl rfl rfl, clearing.concat rfl rfl rfl, rfl, by simp⟩
  | clear clearing queued =>
      rw [clearing] at tracks shut
      obtain ⟨counted, once, found⟩ := tracks
      rw [Balanced, queued] at balanced
      refine ⟨?_, ⟨?_, ?_, ?_⟩, shut, by simp⟩
      · simp [Balanced, balanced, Event.accepted?, Event.taken?, Event.cleared?]
      · simpa [Event.handled?] using counted
      · simpa [Event.handled?, Event.taken?] using once
      · simp [Event.cleared?, found]
  | depart clearing empty =>
      rw [clearing] at tracks shut
      obtain ⟨counted, once, found⟩ := tracks
      have gone : Tracks log (.gone _ : WorkerPhase μ) := ⟨by rw [← counted, found], once⟩
      exact ⟨balanced.concat rfl rfl rfl, gone.concat rfl rfl rfl, shut, fun _ _ => empty⟩

theorem History.kept (history : History size log place) : Kept log place := by
  induction history with
  | start => exact kept_start
  | step _ next ih => exact ih.step next

end Kept

section Heard

/-- A worker hears of the signals that were sent, and of nothing else. -/
structure Heard (log : List (Event μ)) (place : Workplace μ) : Prop where
  /-- The worker keeps its own handle until it is gone. -/
  own : (∀ summary, place.phase ≠ .gone summary) → place.signals.own = true
  sent : 0 < place.signals.sent ↔ .signalled ∈ log

theorem heard_start : Heard [] (start : Workplace μ) :=
  ⟨fun _ => rfl, by simp [start]⟩

theorem Heard.step (heard : Heard log place) (next : Step size place event after) :
    Heard (log ++ [event]) after := by
  obtain ⟨own, sent⟩ := heard
  cases next with
  | offer | accept | refuse | withdraw | clone | drop | hand | release =>
      exact ⟨own, by simpa using sent⟩
  | signal present listening => exact ⟨fun _ => own listening, by simp⟩
  | begin phase | look phase | heed phase | take phase | wait phase | finish _ phase | stop phase
  | close phase | clear phase =>
      exact ⟨fun _ => own (by simp [phase]), by simpa using sent⟩
  | depart => exact ⟨fun there => absurd rfl (there _), by simpa using sent⟩

theorem History.heard (history : History size log place) : Heard log place := by
  induction history with
  | start => exact heard_start
  | step _ next ih => exact ih.step next

/-- As long as a worker is there, nothing but a signal tells it to shut down, however many handles
there are. -/
theorem Heard.isHeard_iff (heard : Heard log place)
    (there : ∀ summary, place.phase ≠ .gone summary) :
    place.signals.isHeard = true ↔ .signalled ∈ log := by
  rw [Signals.isHeard, heard.own there, ← heard.sent]
  simp

@[simp]
theorem isReceiving_concat (log : List (Event μ)) (event : Event μ) :
    isReceiving (log ++ [event]) = event.receivingAfter (isReceiving log) :=
  List.foldl_append

/-- The worker has looked at the signals, and is about to look at the channel. -/
def isAmid : WorkerPhase μ → Bool
  | .receiving _ => true
  | _ => false

theorem History.isReceiving_eq (history : History size log place) :
    isReceiving log = isAmid place.phase := by
  induction history with
  | start => rfl
  | step _ next ih =>
      rw [isReceiving_concat, ih]
      cases next with
      | offer | accept | refuse | withdraw | clone | drop | hand | release | signal | look | heed
      | take | wait | stop => rfl
      | begin phase | finish _ phase | close phase | clear phase | depart phase =>
          rw [phase]
          rfl

/-- After a signal a message is taken only by a worker that had looked at the signals before, and
none if that worker has yet to look at the channel. -/
def Quiet (log : List (Event μ)) (phase : WorkerPhase μ) : Prop :=
  ∀ earlier later, log = earlier ++ .signalled :: later →
    (taken later).length + (isAmid phase).toNat ≤ (isReceiving earlier).toNat

theorem Quiet.step (quiet : Quiet log place.phase) (heard : Heard log place)
    (amid : isReceiving log = isAmid place.phase) (next : Step size place event after) :
    Quiet (log ++ [event]) after.phase := by
  intro earlier later split
  rcases List.eq_nil_or_concat' later with rfl | ⟨later, last, rfl⟩
  · obtain ⟨rfl, same⟩ := List.append_inj' split rfl
    obtain rfl := List.head_eq_of_cons_eq same
    cases next with
    | signal => simp [amid, taken]
  · rw [← List.cons_append, ← List.append_assoc] at split
    obtain ⟨before, same⟩ := List.append_inj' split rfl
    obtain rfl := List.head_eq_of_cons_eq same
    have signalled : .signalled ∈ log := by simp [before]
    have bound := quiet earlier later before
    rw [taken_concat, List.length_append]
    cases next with
    | look free unheard =>
        have there := (heard.isHeard_iff (by simp [free])).mpr signalled
        rw [unheard] at there
        cases there
    | take receiving => simpa [receiving, isAmid, Event.taken?] using bound
    | offer | accept | refuse | withdraw | clone | drop | hand | release | signal => exact bound
    | begin | heed | wait | finish | stop | close | clear | depart =>
        exact (Nat.le_add_right _ _).trans bound

theorem History.quiet (history : History size log place) : Quiet log place.phase := by
  induction history with
  | start => simp [Quiet]
  | step earlier next ih => exact ih.step earlier.heard earlier.isReceiving_eq next

/-- If receiving is one operation, no signal comes amid it. -/
theorem IsAtomic.isReceiving_eq_false (atomic : IsAtomic log) {earlier later : List (Event μ)}
    (split : log = earlier ++ .signalled :: later) : isReceiving earlier = false := by
  subst split
  by_contra receiving
  have ended := atomic earlier.length (by simp) (by simpa using receiving)
  simp [Event.receivingAfter] at ended

end Heard

section Stopping

/-- The worker has left its loop. -/
def hasStopped : WorkerPhase μ → Bool
  | .stopped _ | .clearing _ _ | .gone _ => true
  | _ => false

/-- All dispatchers are gone, and every message that they sent was taken. -/
structure Deserted (log : List (Event μ)) (place : Workplace μ) : Prop where
  dispatchers : place.dispatchers = []
  queue : place.queue = []
  /-- No message was left when the channel was closed. -/
  cleared : cleared log = []

/-- The worker stops for a reason. -/
structure Grounded (log : List (Event μ)) (place : Workplace μ) : Prop where
  /-- The dispatchers of messages that are offered are there. -/
  present : ∀ offer ∈ place.offers, offer.1 ∈ place.dispatchers
  /-- A worker stops after a signal, or when nothing is left for it to do. -/
  reason : hasStopped place.phase = true → .signalled ∈ log ∨ Deserted log place

theorem grounded_start : Grounded [] (start : Workplace μ) :=
  ⟨by simp [start], by simp [start, hasStopped]⟩

theorem Deserted.concat (deserted : Deserted log place)
    (dispatchers : after.dispatchers ⊆ place.dispatchers) (queue : after.queue = place.queue)
    (uncleared : event.cleared? = none) : Deserted (log ++ [event]) after where
  dispatchers := List.subset_nil.mp (deserted.dispatchers ▸ dispatchers)
  queue := queue.trans deserted.queue
  cleared := by simp [uncleared, deserted.cleared]

theorem Grounded.step (grounded : Grounded log place) (kept : Kept log place)
    (heard : Heard log place) (next : Step size place event after) :
    Grounded (log ++ [event]) after := by
  obtain ⟨present, reason⟩ := grounded
  have still {other : Workplace μ} (dispatchers : other.dispatchers ⊆ place.dispatchers)
      (queue : other.queue = place.queue) (uncleared : event.cleared? = none)
      (ended : hasStopped place.phase = true) :
      .signalled ∈ log ++ [event] ∨ Deserted (log ++ [event]) other :=
    (reason ended).imp (List.mem_append_left _) (·.concat dispatchers queue uncleared)
  cases next with
  | offer message there =>
      refine ⟨fun offer member => ?_, still (List.Subset.refl _) rfl rfl⟩
      rcases List.mem_append.mp member with earlier | new
      · exact present offer earlier
      · obtain rfl := List.mem_singleton.mp new
        exact there
  | @accept dispatcher message earlier later offered _ _ =>
      have there : dispatcher ∈ place.dispatchers :=
        present (dispatcher, message) (by simp [offered])
      refine ⟨fun offer member => present offer ?_, fun ended => .inl ?_⟩
      · rw [offered]
        exact ((List.sublist_cons_self _ _).append_left _).subset member
      -- Somebody offers, so a worker that has stopped was told to.
      · refine List.mem_append_left _ ((reason ended).resolve_right fun deserted => ?_)
        rw [deserted.dispatchers] at there
        exact absurd there List.not_mem_nil
  | refuse offered | withdraw offered =>
      refine ⟨fun offer member => present offer ?_, still (List.Subset.refl _) rfl rfl⟩
      rw [offered]
      exact ((List.sublist_cons_self _ _).append_left _).subset member
  | clone there =>
      refine ⟨fun offer member => List.mem_append_left _ (present offer member),
        fun ended => .inl ?_⟩
      refine List.mem_append_left _ ((reason ended).resolve_right fun deserted => ?_)
      rw [deserted.dispatchers] at there
      exact absurd there List.not_mem_nil
  | drop _ unoccupied =>
      refine ⟨fun offer member => ?_, still (List.filter_subset_self _) rfl rfl⟩
      exact List.mem_filter.mpr ⟨present offer member, by simpa using unoccupied offer member⟩
  | hand | release | signal => exact ⟨present, still (List.Subset.refl _) rfl rfl⟩
  | begin | look | take | wait | finish => exact ⟨present, fun ended => by cases ended⟩
  | heed free signal =>
      have signalled := (heard.isHeard_iff (by simp [free])).mp signal
      exact ⟨present, fun _ => .inl (List.mem_append_left _ signalled)⟩
  | stop receiving turn =>
      obtain ⟨closed, queue⟩ := receive_eq_stop_iff.mp turn
      have tracks := kept.tracks
      rw [receiving] at tracks
      have deserted : Deserted log place := ⟨List.isEmpty_iff.mp closed, queue, tracks.2.2⟩
      exact ⟨present, fun _ => .inr (deserted.concat (List.Subset.refl _) rfl rfl)⟩
  | close stopped =>
      exact ⟨present, fun _ => still (List.Subset.refl _) rfl rfl (by rw [stopped]; rfl)⟩
  | clear clearing queued =>
      refine ⟨present, fun _ => .inl ?_⟩
      refine List.mem_append_left _
        ((reason (by rw [clearing]; rfl)).resolve_right fun deserted => ?_)
      rw [deserted.queue] at queued
      cases queued
  | depart clearing =>
      exact ⟨present, fun _ => still (List.Subset.refl _) rfl rfl (by rw [clearing]; rfl)⟩

theorem History.grounded (history : History size log place) : Grounded log place := by
  induction history with
  | start => exact grounded_start
  | step earlier next ih => exact ih.step earlier.kept earlier.heard next

end Stopping

/-- What the summary of a worker that is gone says about all that happened. -/
structure Accounts (log : List (Event μ)) (summary : WorkerSummary) : Prop where
  ordered : taken log <+: accepted log
  /-- Each of them was handled, once and in this order. -/
  once : (handled log).map Prod.fst = taken log
  handled : summary.handled = (outcomes log).countP Except.isOk
  failed : summary.failed = (outcomes log).countP fun outcome => !outcome.isOk
  /-- All accepted messages are counted, each once. -/
  total : summary.total = (accepted log).length
  degraded : summary.degraded = (outcomes log).countP Worker.isPartial
  /-- They are among those that were handled. -/
  degraded_le : summary.degraded ≤ summary.handled
  /-- Messages are left in the channel only after a signal. -/
  signalled : 0 < summary.abandoned → .signalled ∈ log

theorem History.accounts (history : History size log place) {summary : WorkerSummary}
    (gone : place.phase = .gone summary) : Accounts log summary := by
  obtain ⟨balanced, tracks, _, empty⟩ := history.kept
  rw [gone] at tracks
  obtain ⟨rfl, once⟩ := tracks
  rw [Balanced, empty _ gone, List.append_nil] at balanced
  rw [Worker.tally_eq] at gone ⊢
  refine ⟨⟨_, balanced.symm⟩, once, rfl, rfl, ?_, rfl, ?_, fun abandoned => ?_⟩
  · have each : (taken log).length = (outcomes log).length := by
      rw [← once, outcomes, List.length_map, List.length_map]
    rw [balanced, List.length_append, each, List.length_eq_countP_add_countP Except.isOk]
    simp [WorkerSummary.total, WorkerSummary.abandon]
  · exact List.countP_mono_left fun outcome _ => by
      rcases outcome with error | (_ | _) <;> simp [Worker.isPartial, Except.isOk, Except.toBool]
  · refine (history.grounded.reason (by rw [gone]; rfl)).resolve_right fun deserted => ?_
    change 0 < (cleared log).length at abandoned
    rw [deserted.cleared] at abandoned
    exact absurd abandoned (Nat.lt_irrefl 0)

/-- A worker that stops was told to, or all dispatchers are gone and nothing is left. -/
theorem History.stops_iff (history : History size log place) :
    (∃ after, Step size place .stopped after) ↔ ∃ summary,
      place.phase = .free summary ∧ .signalled ∈ log ∨
        place.phase = .receiving summary ∧ place.dispatchers = [] ∧ place.queue = [] := by
  constructor
  · rintro ⟨after, next⟩
    cases next with
    | @heed summary free heard =>
        exact ⟨summary, .inl ⟨free, (history.heard.isHeard_iff (by simp [free])).mp heard⟩⟩
    | @stop summary receiving turn =>
        obtain ⟨closed, queue⟩ := receive_eq_stop_iff.mp turn
        exact ⟨summary, .inr ⟨receiving, List.isEmpty_iff.mp closed, queue⟩⟩
  · rintro ⟨summary, ⟨free, signalled⟩ | ⟨receiving, gone, queue⟩⟩
    · exact ⟨_, .heed free ((history.heard.isHeard_iff (by simp [free])).mpr signalled)⟩
    · exact ⟨_, .stop receiving (receive_eq_stop_iff.mpr ⟨List.isEmpty_iff.mpr gone, queue⟩)⟩

namespace Sample

def first : IndexMessage := .deleteCourse 1

def second : IndexMessage := .deleteCourse 2

/-- The second message waits for a full channel, and a signal comes while the first one is
handled. -/
def events : List (Event IndexMessage) :=
  [.handed, .offered 0 first, .dispatched 0 first (.ok ()), .offered 0 second, .begun, .looked,
    .taken first, .dispatched 0 second (.ok ()), .signalled, .released, .finished first (.ok false),
    .stopped, .closed, .cleared second, .returned ⟨1, 1, 0, 1⟩]

/-- A signal comes when the worker has looked at the signals, but not yet at the channel. -/
def interrupted : List (Event IndexMessage) :=
  [.handed, .offered 0 first, .dispatched 0 first (.ok ()), .begun, .looked, .signalled,
    .taken first]

/-- A workplace with one dispatcher, as long as the channel is open. -/
def working (offers : List (Nat × IndexMessage)) (queue : List IndexMessage) (sent handles : Nat)
    (phase : WorkerPhase IndexMessage) : Workplace IndexMessage :=
  ⟨[0], offers, queue, false, ⟨sent, handles, true⟩, phase⟩

theorem history_events :
    History 1 events ⟨[0], [], [], true, ⟨1, 0, false⟩, .gone ⟨1, 1, 0, 1⟩⟩ := by
  have handed : History 1 (events.take 1) (working [] [] 0 1 .created) :=
    .step .start (.hand (.inl rfl))
  have offered : History 1 (events.take 2) (working [(0, first)] [] 0 1 .created) :=
    handed.step (.offer first (List.mem_singleton_self 0))
  have accepted : History 1 (events.take 3) (working [] [first] 0 1 .created) :=
    offered.step (@Step.accept _ 1 (working [(0, first)] [] 0 1 .created) 0 first [] [] rfl rfl
      Nat.one_pos)
  have waiting : History 1 (events.take 4) (working [(0, second)] [first] 0 1 .created) :=
    accepted.step (.offer second (List.mem_singleton_self 0))
  have begun : History 1 (events.take 5) (working [(0, second)] [first] 0 1 (.free {})) :=
    waiting.step (.begin rfl)
  have looked : History 1 (events.take 6) (working [(0, second)] [first] 0 1 (.receiving {})) :=
    begun.step (.look rfl rfl)
  have taken : History 1 (events.take 7) (working [(0, second)] [] 0 1 (.busy first {})) :=
    looked.step (.take rfl rfl)
  have admitted : History 1 (events.take 8) (working [] [second] 0 1 (.busy first {})) :=
    taken.step (@Step.accept _ 1 (working [(0, second)] [] 0 1 (.busy first {})) 0 second [] []
      rfl rfl Nat.one_pos)
  have signalled : History 1 (events.take 9) (working [] [second] 1 1 (.busy first {})) :=
    admitted.step (.signal (by decide) (by rintro _ ⟨⟩))
  have released : History 1 (events.take 10) (working [] [second] 1 0 (.busy first {})) :=
    signalled.step (.release (by decide))
  have finished : History 1 (events.take 11) (working [] [second] 1 0 (.free ⟨1, 1, 0, 0⟩)) :=
    released.step
      (@Step.finish _ 1 (working [] [second] 1 0 (.busy first {})) {} first (.ok false) rfl)
  have stopped : History 1 (events.take 12) (working [] [second] 1 0 (.stopped ⟨1, 1, 0, 0⟩)) :=
    finished.step (.heed rfl rfl)
  have closed : History 1 (events.take 13)
      ⟨[0], [], [second], true, ⟨1, 0, true⟩, .clearing ⟨1, 1, 0, 0⟩ []⟩ :=
    stopped.step (.close rfl)
  have cleared : History 1 (events.take 14)
      ⟨[0], [], [], true, ⟨1, 0, true⟩, .clearing ⟨1, 1, 0, 0⟩ [second]⟩ :=
    closed.step (@Step.clear _ 1 _ ⟨1, 1, 0, 0⟩ [] [] second rfl rfl)
  exact cleared.step (@Step.depart _ 1 _ ⟨1, 1, 0, 0⟩ [second] rfl rfl)

theorem history_interrupted :
    History 1 interrupted ⟨[0], [], [], false, ⟨1, 1, true⟩, .busy first {}⟩ := by
  have handed : History 1 (interrupted.take 1) (working [] [] 0 1 .created) :=
    .step .start (.hand (.inl rfl))
  have offered : History 1 (interrupted.take 2) (working [(0, first)] [] 0 1 .created) :=
    handed.step (.offer first (List.mem_singleton_self 0))
  have accepted : History 1 (interrupted.take 3) (working [] [first] 0 1 .created) :=
    offered.step (@Step.accept _ 1 (working [(0, first)] [] 0 1 .created) 0 first [] [] rfl rfl
      Nat.one_pos)
  have begun : History 1 (interrupted.take 4) (working [] [first] 0 1 (.free {})) :=
    accepted.step (.begin rfl)
  have looked : History 1 (interrupted.take 5) (working [] [first] 0 1 (.receiving {})) :=
    begun.step (.look rfl rfl)
  have signalled : History 1 (interrupted.take 6) (working [] [first] 1 1 (.receiving {})) :=
    looked.step (.signal (by decide) (by rintro _ ⟨⟩))
  exact signalled.step (.take rfl rfl)

end Sample

end Workplace
end LearningIndex
