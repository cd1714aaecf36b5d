import LearningIndex.Proofs.Program.Transcript
import Mathlib.Logic.Relation

/-!
# A producer beside a worker

A producer and a worker share the services, and either of them may make the next step.  The worker
handles one message at a time, and when it is free it takes any message that waits.  So whatever
holds of all these executions holds for every interleaving of the two and for every order in which
messages are handled; that a channel is bounded and keeps its messages in order only makes some of
them impossible.
-/

namespace LearningIndex

/-- A producer and a worker at some point of their work. -/
structure Interplay (σ α : Type) where
  world : σ
  /-- What the producer has yet to do. -/
  producer : Producer α
  /-- The messages that were handed over, in this order. -/
  dispatched : List IndexMessage
  /-- The messages that the worker has not taken. -/
  waiting : List IndexMessage
  /-- The message that the worker handles, and what it has yet to do for it. -/
  inHand : Option (IndexMessage × Task Bool)
  /-- The messages that were handled, in this order, with what came of them. -/
  handled : List (IndexMessage × Except IndexingError Bool)

namespace Interplay

variable {σ α : Type}

def start (world : σ) (producer : Producer α) : Interplay σ α :=
  ⟨world, producer, [], [], none, []⟩

/-- The producer has ended, and all messages have been handled. -/
structure Ends (state : Interplay σ α) (outcome : Except IndexingError α) : Prop where
  producer : state.producer = .done outcome
  waiting : state.waiting = []
  inHand : state.inHand = none

section Steps

variable (serve : (request : Service.Request) → σ → Service.Reply request × σ)
variable (handle : IndexMessage → Task Bool)

/-- One step of the producer or of the worker. -/
inductive Step : Interplay σ α → Interplay σ α → Prop
  | request (world : σ) (request : Service.Request) (next : Service.Reply request → Producer α)
      (dispatched waiting : List IndexMessage) (inHand : Option (IndexMessage × Task Bool))
      (handled : List (IndexMessage × Except IndexingError Bool)) :
      Step ⟨world, .ask (.service request) next, dispatched, waiting, inHand, handled⟩
        ⟨(serve request world).2, next (serve request world).1, dispatched, waiting, inHand,
          handled⟩
  | dispatch (world : σ) (message : IndexMessage) (next : Except IndexingError Unit → Producer α)
      (dispatched waiting : List IndexMessage) (inHand : Option (IndexMessage × Task Bool))
      (handled : List (IndexMessage × Except IndexingError Bool)) :
      Step ⟨world, .ask (.dispatch message) next, dispatched, waiting, inHand, handled⟩
        ⟨world, next (.ok ()), dispatched ++ [message], waiting ++ [message], inHand, handled⟩
  | take (world : σ) (producer : Producer α) (dispatched earlier : List IndexMessage)
      (message : IndexMessage) (later : List IndexMessage)
      (handled : List (IndexMessage × Except IndexingError Bool)) :
      Step ⟨world, producer, dispatched, earlier ++ message :: later, none, handled⟩
        ⟨world, producer, dispatched, earlier ++ later, some (message, handle message), handled⟩
  | work (world : σ) (producer : Producer α) (dispatched waiting : List IndexMessage)
      (message : IndexMessage) (request : Service.Request)
      (next : Service.Reply request → Task Bool)
      (handled : List (IndexMessage × Except IndexingError Bool)) :
      Step ⟨world, producer, dispatched, waiting, some (message, .ask request next), handled⟩
        ⟨(serve request world).2, producer, dispatched, waiting,
          some (message, next (serve request world).1), handled⟩
  | finish (world : σ) (producer : Producer α) (dispatched waiting : List IndexMessage)
      (message : IndexMessage) (outcome : Except IndexingError Bool)
      (handled : List (IndexMessage × Except IndexingError Bool)) :
      Step ⟨world, producer, dispatched, waiting, some (message, .done outcome), handled⟩
        ⟨world, producer, dispatched, waiting, none, handled ++ [(message, outcome)]⟩

def Reaches : Interplay σ α → Interplay σ α → Prop :=
  Relation.ReflTransGen (Step serve handle)

end Steps

section Progress

variable (serve : (request : Service.Request) → σ → Service.Reply request × σ)
variable (handle : IndexMessage → Task Bool)

variable {serve handle} in
theorem Reaches.isPrefix_dispatched {before after : Interplay σ α}
    (reaches : Reaches serve handle before after) : before.dispatched <+: after.dispatched := by
  induction reaches with
  | refl => exact List.prefix_rfl
  | tail _ step ih =>
      refine ih.trans ?_
      cases step with
      | dispatch => exact List.prefix_append _ _
      | _ => exact List.prefix_rfl

/-- What the worker has yet to ask belongs to the handling of its message. -/
def Loyal (state : Interplay σ α) : Prop :=
  ∀ message task, state.inHand = some (message, task) →
    ∀ request, task.Asks request → (handle message).Asks request

variable {serve handle} in
theorem Loyal.step {before after : Interplay σ α} (loyal : Loyal handle before)
    (step : Step serve handle before after) : Loyal handle after := by
  cases step with
  | request => exact loyal
  | dispatch => exact loyal
  | take =>
      rintro _ _ ⟨⟩ request asked
      exact asked
  | work world _ _ _ message question next =>
      rintro _ _ ⟨⟩ request asked
      exact loyal message _ rfl request (.later _ asked)
  | finish => rintro _ _ ⟨⟩

variable {serve handle} in
theorem Reaches.loyal {before after : Interplay σ α} (reaches : Reaches serve handle before after)
    (loyal : Loyal handle before) : Loyal handle after := by
  induction reaches with
  | refl => exact loyal
  | tail _ step ih => exact ih.step step

theorem reaches_finished (producer : Producer α) (dispatched waiting : List IndexMessage)
    (message : IndexMessage) (task : Task Bool)
    (handled : List (IndexMessage × Except IndexingError Bool)) (world : σ) :
    Reaches serve handle ⟨world, producer, dispatched, waiting, some (message, task), handled⟩
      ⟨(task.run serve world).2, producer, dispatched, waiting, none,
        handled ++ [(message, (task.run serve world).1)]⟩ := by
  induction task generalizing world with
  | done outcome =>
      exact .single (.finish world producer dispatched waiting message outcome handled)
  | ask request next ih =>
      exact .head (.work world producer dispatched waiting message request next handled) (ih _ _)

theorem reaches_handled (producer : Producer α) (dispatched : List IndexMessage)
    (message : IndexMessage) (waiting : List IndexMessage)
    (handled : List (IndexMessage × Except IndexingError Bool)) (world : σ) :
    Reaches serve handle ⟨world, producer, dispatched, message :: waiting, none, handled⟩
      ⟨((handle message).run serve world).2, producer, dispatched, waiting, none,
        handled ++ [(message, ((handle message).run serve world).1)]⟩ :=
  .head (.take world producer dispatched [] message waiting handled)
    (reaches_finished serve handle producer dispatched waiting message (handle message) handled
      world)

/-- The worker can handle the messages that wait in any order. -/
theorem exists_reaches_ordered (producer : Producer α) (dispatched : List IndexMessage)
    {waiting order : List IndexMessage} (same : order.Perm waiting)
    (handled : List (IndexMessage × Except IndexingError Bool)) (world : σ) :
    ∃ after more, Reaches serve handle ⟨world, producer, dispatched, waiting, none, handled⟩
        ⟨after, producer, dispatched, [], none, handled ++ more⟩ ∧ more.map (·.1) = order := by
  induction order generalizing world handled waiting with
  | nil =>
      obtain rfl := same.nil_eq
      exact ⟨world, [], by rw [List.append_nil]; exact .refl, rfl⟩
  | cons message rest ih =>
      -- The message that is first in the order is taken from wherever it waits.
      obtain ⟨earlier, later, rfl⟩ := List.append_of_mem (same.subset List.mem_cons_self)
      have others : rest.Perm (earlier ++ later) :=
        (List.perm_cons message).mp (same.trans List.perm_middle)
      have finished := reaches_finished serve handle producer dispatched (earlier ++ later) message
        (handle message) handled world
      generalize (handle message).run serve world = answer at finished
      obtain ⟨after, more, reached, listed⟩ := ih others (handled ++ [(message, answer.1)]) answer.2
      refine ⟨after, (message, answer.1) :: more, ?_, by rw [List.map_cons, listed]⟩
      rw [List.append_cons handled]
      exact .head (.take world producer dispatched earlier message later handled)
        (finished.trans reached)

/-- The producer can end without a step of the worker. -/
theorem exists_reaches_produced (producer : Producer α) (dispatched waiting : List IndexMessage)
    (inHand : Option (IndexMessage × Task Bool))
    (handled : List (IndexMessage × Except IndexingError Bool)) (world : σ) :
    ∃ after outcome sent,
      Reaches serve handle ⟨world, producer, dispatched, waiting, inHand, handled⟩
        ⟨after, .done outcome, dispatched ++ sent, waiting ++ sent, inHand, handled⟩ := by
  induction producer generalizing world dispatched waiting with
  | done outcome =>
      refine ⟨world, outcome, [], ?_⟩
      rw [List.append_nil, List.append_nil]
      exact .refl
  | ask request next ih =>
      cases request with
      | service request =>
          obtain ⟨after, outcome, sent, produced⟩ := ih _ dispatched waiting _
          exact ⟨after, outcome, sent,
            .head (.request world request next dispatched waiting inHand handled) produced⟩
      | dispatch message =>
          obtain ⟨after, outcome, sent, produced⟩ :=
            ih (.ok ()) (dispatched ++ [message]) (waiting ++ [message]) world
          refine ⟨after, outcome, message :: sent, ?_⟩
          rw [List.append_cons dispatched, List.append_cons waiting]
          exact .head (.dispatch world message next dispatched waiting inHand handled) produced

theorem exists_reaches_end (state : Interplay σ α) :
    ∃ last outcome, Reaches serve handle state last ∧ last.Ends outcome := by
  obtain ⟨world, producer, dispatched, waiting, inHand, handled⟩ := state
  obtain ⟨after, outcome, sent, produced⟩ :=
    exists_reaches_produced serve handle producer dispatched waiting inHand handled world
  cases inHand with
  | none =>
      obtain ⟨final, more, drained, _⟩ := exists_reaches_ordered serve handle (.done outcome)
        (dispatched ++ sent) (.refl (waiting ++ sent)) handled after
      exact ⟨_, outcome, produced.trans drained, rfl, rfl, rfl⟩
  | some taken =>
      obtain ⟨message, task⟩ := taken
      have finished := reaches_finished serve handle (.done outcome) (dispatched ++ sent)
        (waiting ++ sent) message task handled after
      obtain ⟨final, more, drained, _⟩ := exists_reaches_ordered serve handle (.done outcome)
        (dispatched ++ sent) (.refl (waiting ++ sent)) _ _
      exact ⟨_, outcome, (produced.trans finished).trans drained, rfl, rfl, rfl⟩

/-- What the producer hands over on its own can be handled in any order. -/
theorem exists_reaches_end_in_order (producer : Producer α) (world : σ) :
    ∃ outcome sent, ∀ order : List IndexMessage, order.Perm sent →
      ∃ last, Reaches serve handle (.start world producer) last ∧ last.Ends outcome ∧
        last.dispatched = sent ∧ last.handled.map (·.1) = order := by
  obtain ⟨after, outcome, sent, produced⟩ :=
    exists_reaches_produced serve handle producer [] [] none [] world
  refine ⟨outcome, sent, fun order same => ?_⟩
  obtain ⟨final, more, drained, listed⟩ :=
    exists_reaches_ordered serve handle (.done outcome) sent same [] after
  exact ⟨_, produced.trans drained, ⟨rfl, rfl, rfl⟩, rfl, listed⟩

/-- A worker on a channel to which nothing is added handles its messages in their order. -/
theorem reaches_drain (producer : Producer α) (dispatched waiting : List IndexMessage)
    (handled : List (IndexMessage × Except IndexingError Bool)) (world : σ)
    (summary : WorkerSummary) :
    ∃ after more, (Worker.drain handle waiting summary).run serve world =
        (.ok ((more.map (·.2)).foldl WorkerSummary.count summary), after) ∧
      Reaches serve handle ⟨world, producer, dispatched, waiting, none, handled⟩
        ⟨after, producer, dispatched, [], none, handled ++ more⟩ := by
  induction waiting generalizing world handled summary with
  | nil => exact ⟨world, [], rfl, by simpa using .refl⟩
  | cons message rest ih =>
      have first := reaches_handled serve handle producer dispatched message rest handled world
      obtain ⟨after, more, ran, drained⟩ := ih _ _ (summary.count _)
      refine ⟨after, (message, ((handle message).run serve world).1) :: more, ?_, ?_⟩
      · simp only [Worker.drain, Program.bind_eq_andThen, Program.run_attempt_andThen]
        exact ran
      · rw [List.append_cons]
        exact first.trans drained

/-- A producer that succeeds over a bounded channel, and its worker, are one of the executions.  The
summary counts what was handled. -/
theorem reaches_withWorker {capacity : Nat} (producer : Producer α)
    (dispatched waiting : List IndexMessage)
    (handled : List (IndexMessage × Except IndexingError Bool)) {world after : σ} {result : α}
    {summary total : WorkerSummary}
    (ran : (producer.withWorker capacity handle waiting summary).run serve world =
      (.ok (.ok result, total), after)) :
    ∃ sent more, Reaches serve handle ⟨world, producer, dispatched, waiting, none, handled⟩
        ⟨after, .done (.ok result), sent, [], none, handled ++ more⟩ ∧
      total = (more.map (·.2)).foldl WorkerSummary.count summary := by
  induction producer generalizing world dispatched waiting handled summary with
  | done outcome =>
      cases outcome with
      | error error =>
          cases ran
      | ok other =>
          obtain ⟨final, more, drained, reached⟩ := reaches_drain serve handle
            (.done (.ok other)) dispatched waiting handled world summary
          rw [Producer.withWorker, Program.bind_eq_andThen,
            Program.run_andThen_of_ok drained] at ran
          obtain ⟨succeeded, rfl⟩ := Prod.mk.inj ran
          obtain ⟨ended, counted⟩ := Prod.mk.inj (Except.ok.inj succeeded)
          rw [← ended]
          exact ⟨dispatched, more, reached, counted.symm⟩
  | ask request next ih =>
      cases request with
      | service request =>
          obtain ⟨sent, more, reached, counted⟩ := ih _ dispatched waiting handled ran
          exact ⟨sent, more,
            .head (.request world request next dispatched waiting none handled) reached, counted⟩
      | dispatch message =>
          have step : Step serve handle _ _ :=
            .dispatch world message next dispatched waiting none handled
          simp only [Producer.withWorker] at ran
          split at ran
          · obtain ⟨sent, more, reached, counted⟩ := ih _ _ _ _ ran
            exact ⟨sent, more, .head step reached, counted⟩
          · cases waiting with
            | nil =>
                obtain ⟨sent, more, reached, counted⟩ := ih _ _ _ _ ran
                exact ⟨sent, more, .head step reached, counted⟩
            | cons oldest rest =>
                -- The channel is full, so the worker handles its oldest message first.
                simp only [Program.run_attempt_andThen] at ran
                have first := reaches_handled serve handle (next (.ok ())) (dispatched ++ [message])
                  oldest (rest ++ [message]) handled world
                generalize (handle oldest).run serve world = answer at ran first
                obtain ⟨sent, more, reached, counted⟩ :=
                  ih (.ok ()) (dispatched ++ [message]) _ (handled ++ [(oldest, answer.1)]) ran
                refine ⟨sent, (oldest, answer.1) :: more, ?_, counted⟩
                rw [List.append_cons]
                exact .head step (first.trans reached)

end Progress

end Interplay
end LearningIndex
