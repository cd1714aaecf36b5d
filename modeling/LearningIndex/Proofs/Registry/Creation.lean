import LearningIndex.Proofs.Registry.Settling

/-!
# Creating the indexes in spite of failures

Against an honest engine a call that creates the indexes settles the definitions in order, up to the
end or up to an engine call that fails.  It asks for the creation of an index only where there is
none, and only after the pipeline has been registered.
-/

namespace LearningIndex
namespace Registry

section Runs

variable {definition : IndexDefinition} {definitions : List IndexDefinition}
  {holdings : Holdings} {trace : List (Exchange services)}

theorem yields_call_andThen_iff {α : Type} {call : EngineCall} {next : call.Answer → Task α}
    {outcome : Except IndexingError α} :
    ((Task.engine call).andThen next).Yields trace outcome ↔
      (∃ answer rest, trace = answered call answer :: rest ∧ (next answer).Yields rest outcome) ∨
        ∃ error, trace = [refused call error] ∧ outcome = .error (.engine error) := by
  rw [Program.yields_andThen_iff]
  constructor
  · rintro (⟨error, failed, rfl⟩ | ⟨answer, first, rest, rfl, succeeded, later⟩)
    · obtain ⟨reason | answer, rfl, same⟩ := Task.yields_engine_iff.mp failed
      · cases same
        exact .inr ⟨reason, rfl, rfl⟩
      · cases same
    · obtain ⟨error | reply, rfl, same⟩ := Task.yields_engine_iff.mp succeeded
      · cases same
      · cases same
        exact .inl ⟨answer, rest, rfl, later⟩
  · rintro (⟨answer, rest, rfl, later⟩ | ⟨error, rfl, rfl⟩)
    · exact .inr ⟨answer, [_], rest, rfl, Task.yields_engine_iff.mpr ⟨.ok answer, rfl, rfl⟩, later⟩
    · exact .inl ⟨_, Task.yields_engine_iff.mpr ⟨.error error, rfl, rfl⟩, rfl⟩

theorem yields_registerPipeline_andThen_iff {α : Type} {next : Unit → Task α}
    {outcome : Except IndexingError α} :
    ((registerPipeline definition).andThen next).Yields trace outcome ↔
      (∃ rest, trace = registration definition ++ rest ∧ (next ()).Yields rest outcome) ∨
        ∃ pipeline ∈ definition.pipeline, ∃ error,
          trace = [refused (.putPipeline pipeline.id pipeline.body) error] ∧
            outcome = .error (.engine error) := by
  unfold registerPipeline registration
  cases definition.pipeline with
  | none => simp
  | some pipeline =>
      refine yields_call_andThen_iff.trans ?_
      constructor
      · rintro (⟨_, rest, rfl, run⟩ | failed)
        · exact .inl ⟨rest, rfl, run⟩
        · exact .inr ⟨pipeline, rfl, failed⟩
      · rintro (⟨rest, rfl, run⟩ | ⟨other, named, failed⟩)
        · exact .inl ⟨(), rest, rfl, run⟩
        · cases Option.mem_some_iff.mp named
          exact .inr failed

/-- With an honest engine a definition is settled, or one of the calls for it fails. -/
theorem yields_createMissing_iff {outcome : Except IndexingError Bool} :
    (createMissing definition).Yields trace outcome ∧ holdings.Honest trace ↔
      (trace = holdings.settling definition ∧
          outcome = .ok (holdings.indexes definition.name).isNone) ∨
        ∃ front call error, holdings.Stage definition front call ∧
          trace = front ++ [refused call error] ∧ outcome = .error (.engine error) := by
  simp only [createMissing, Program.bind_eq_andThen, Program.pure_eq_done,
    yields_registerPipeline_andThen_iff]
  constructor
  · rintro ⟨⟨rest, rfl, run⟩ | ⟨pipeline, named, error, rfl, rfl⟩, honest⟩
    swap
    · exact .inr ⟨[], _, error, .registering named, rfl, rfl⟩
    obtain ⟨found, others, rfl, later⟩ | ⟨error, rfl, rfl⟩ := yields_call_andThen_iff.mp run
    swap
    · exact .inr ⟨_, _, error, .seeking, rfl, rfl⟩
    -- The engine is honest, so its answer decides as the holdings do.
    have truth : found = (holdings.indexes definition.name).isSome := by
      have said := (Holdings.honest_append.mp honest).2.1
      rwa [← sought, Holdings.supports_sought, Holdings.indexes_registration] at said
    subst truth
    cases present : holdings.indexes definition.name with
    | some body =>
        rw [present] at later
        obtain ⟨rfl, rfl⟩ := Program.yields_done_iff.mp later
        exact .inl ⟨by simp [Holdings.settling, present, sought], rfl⟩
    | none =>
        rw [present] at later
        obtain ⟨_, _, rfl, ended⟩ | ⟨error, rfl, rfl⟩ := yields_call_andThen_iff.mp later
        · obtain ⟨rfl, rfl⟩ := Program.yields_done_iff.mp ended
          exact .inl ⟨by simp [Holdings.settling, present, sought, created], rfl⟩
        · exact .inr ⟨_, _, error, .creating present, by simp [sought], rfl⟩
  · rintro (⟨rfl, rfl⟩ | ⟨front, call, error, stage, rfl, rfl⟩)
    · unfold Holdings.settling
      cases present : holdings.indexes definition.name with
      | some body =>
          refine ⟨.inl ⟨_, rfl, yields_call_andThen_iff.mpr (.inl ⟨true, _, rfl, .done _⟩)⟩, ?_⟩
          simp [Holdings.honest_append, Holdings.honest_registration, present]
      | none =>
          refine ⟨.inl ⟨_, rfl, yields_call_andThen_iff.mpr (.inl ⟨false, _, rfl, ?_⟩)⟩, ?_⟩
          · exact yields_call_andThen_iff.mpr (.inl ⟨(), _, rfl, .done _⟩)
          · simp [Holdings.honest_append, Holdings.honest_registration, present]
    · cases stage with
      | registering named => exact ⟨.inr ⟨_, named, error, rfl, rfl⟩, by simp⟩
      | seeking =>
          refine ⟨.inl ⟨_, rfl, yields_call_andThen_iff.mpr (.inr ⟨error, rfl, rfl⟩)⟩, ?_⟩
          simp [Holdings.honest_append, Holdings.honest_registration]
      | creating missing =>
          refine ⟨.inl ⟨_, List.append_assoc .., ?_⟩, ?_⟩
          · refine yields_call_andThen_iff.mpr (.inl ⟨false, _, rfl, ?_⟩)
            exact yields_call_andThen_iff.mpr (.inr ⟨error, rfl, rfl⟩)
          · simp [Holdings.honest_append, Holdings.honest_registration, missing]

theorem yields_createAll_cons_iff {outcome : Except IndexingError (List String)} :
    (createAll (definition :: definitions)).Yields trace outcome ∧ holdings.Honest trace ↔
      (∃ later inner, trace = holdings.settling definition ++ later ∧
          ((createAll definitions).Yields later inner ∧ (holdings.settle definition).Honest later) ∧
          outcome = inner.map (creations (holdings.settling definition) ++ ·)) ∨
        ∃ front call error, holdings.Stage definition front call ∧
          trace = front ++ [refused call error] ∧ outcome = .error (.engine error) := by
  have names : (creations (holdings.settling definition) ++ ·) = fun others =>
      if (holdings.indexes definition.name).isNone then definition.name :: others else others := by
    funext others
    rw [Holdings.creations_settling]
    split <;> rfl
  simp only [createAll, Program.bind_eq_andThen, Program.pure_eq_done, names]
  constructor
  · rintro ⟨run, honest⟩
    rcases Program.yields_andThen_iff.mp run with
      ⟨error, failed, rfl⟩ | ⟨fresh, first, later, rfl, settled, others⟩
    · rcases yields_createMissing_iff.mp ⟨failed, honest⟩ with ⟨_, same⟩ | broken
      · cases same
      · obtain ⟨front, call, error, stage, rfl, same⟩ := broken
        cases same
        exact .inr ⟨front, call, error, stage, rfl, rfl⟩
    · obtain ⟨honest, rest⟩ := Holdings.honest_append.mp honest
      rcases yields_createMissing_iff.mp ⟨settled, honest⟩ with ⟨rfl, same⟩ | broken
      · cases same
        obtain ⟨inner, ran, rfl⟩ := Program.yields_andThen_map_iff.mp others
        exact .inl ⟨later, inner, rfl, ⟨ran, rest⟩, rfl⟩
      · obtain ⟨_, _, _, _, _, same⟩ := broken
        cases same
  · rintro (⟨later, inner, rfl, ⟨run, rest⟩, rfl⟩ | ⟨front, call, error, stage, rfl, rfl⟩)
    · obtain ⟨settled, honest⟩ := yields_createMissing_iff.mpr (.inl ⟨rfl, rfl⟩)
      exact ⟨settled.andThen (Program.yields_andThen_map_iff.mpr ⟨inner, run, rfl⟩),
        Holdings.honest_append.mpr ⟨honest, rest⟩⟩
    · obtain ⟨failed, honest⟩ :=
        yields_createMissing_iff.mpr (.inr ⟨front, call, error, stage, rfl, rfl⟩)
      exact ⟨Program.yields_andThen_iff.mpr (.inl ⟨_, failed, rfl⟩), honest⟩

/-- With an honest engine the definitions are settled in order, up to the end or up to a call that
fails. -/
theorem yields_createAll_iff {outcome : Except IndexingError (List String)} :
    (createAll definitions).Yields trace outcome ∧ holdings.Honest trace ↔
      (trace = holdings.course definitions ∧
          outcome = .ok (creations (holdings.course definitions))) ∨
        ∃ done failing rest front call error, definitions = done ++ failing :: rest ∧
          (holdings.settleAll done).Stage failing front call ∧
          trace = holdings.course done ++ (front ++ [refused call error]) ∧
          outcome = .error (.engine error) := by
  induction definitions generalizing holdings trace outcome with
  | nil =>
      simp only [createAll, Program.yields_done_iff, Holdings.course]
      constructor
      · rintro ⟨⟨rfl, rfl⟩, _⟩
        exact .inl ⟨rfl, rfl⟩
      · rintro (⟨rfl, rfl⟩ | ⟨done, _, _, _, _, _, split, _⟩)
        · exact ⟨⟨rfl, rfl⟩, trivial⟩
        · simp at split
  | cons definition others ih =>
      rw [yields_createAll_cons_iff]
      constructor
      · rintro (⟨later, inner, rfl, run, rfl⟩ | ⟨front, call, error, stage, rfl, rfl⟩)
        · rcases ih.mp run with
            ⟨rfl, rfl⟩ | ⟨done, failing, rest, front, call, error, rfl, stage, rfl, rfl⟩
          · exact .inl ⟨rfl, by simp [Holdings.course, creations_append, Except.map]⟩
          · exact .inr ⟨definition :: done, failing, rest, front, call, error, rfl, stage,
              (List.append_assoc ..).symm, rfl⟩
        · exact .inr ⟨[], definition, others, front, call, error, rfl, stage, rfl, rfl⟩
      · rintro (⟨rfl, rfl⟩ |
          ⟨_ | ⟨first, done⟩, failing, rest, front, call, error, split, stage, rfl, rfl⟩)
        · refine .inl ⟨_, _, rfl, ih.mpr (.inl ⟨rfl, rfl⟩), ?_⟩
          simp [Holdings.course, creations_append, Except.map]
        · cases split
          exact .inr ⟨front, call, error, stage, rfl, rfl⟩
        · cases split
          exact .inl ⟨_, _, List.append_assoc .., ih.mpr
            (.inr ⟨done, failing, rest, front, call, error, rfl, stage, rfl, rfl⟩), rfl⟩

end Runs

/-- What may be asked after some exchanges.  An index is created only if there is none of the name,
with the body of a definition whose pipeline has been registered; none is deleted. -/
def Permitted (definitions : List IndexDefinition) (holdings : Holdings)
    (earlier : List (Exchange services)) : services.Request → Prop
  | .engine (.createIndex name body) =>
      holdings.indexes name = none ∧
        ∃ definition ∈ definitions, definition.name = name ∧ definition.mapping.body = body ∧
          ∀ pipeline ∈ definition.pipeline, registered pipeline ∈ earlier
  | .engine (.deleteIndex _) => False
  | _ => True

/-- All that is asked in a trace is permitted when it is asked. -/
def Careful (definitions : List IndexDefinition) (holdings : Holdings)
    (trace : List (Exchange services)) : Prop :=
  ∀ earlier exchange later, trace = earlier ++ exchange :: later →
    Permitted definitions (holdings.replay earlier) earlier exchange.request

section Care

variable {definition : IndexDefinition} {definitions : List IndexDefinition}
  {holdings : Holdings} {first second : List (Exchange services)}

theorem Permitted.mono {request : services.Request}
    (permitted : Permitted definitions holdings first request)
    (subset : ∀ exchange ∈ first, exchange ∈ second) :
    Permitted definitions holdings second request := by
  unfold Permitted at *
  split at permitted
  · obtain ⟨missing, definition, member, rfl, rfl, named⟩ := permitted
    exact ⟨missing, definition, member, rfl, rfl, fun pipeline is => subset _ (named pipeline is)⟩
  · exact permitted
  · trivial

/-- What comes after a careful trace is judged with what came before it. -/
theorem Careful.append_of (front : Careful definitions holdings first)
    (back : ∀ earlier exchange later, second = earlier ++ exchange :: later →
      Permitted definitions (holdings.replay (first ++ earlier)) (first ++ earlier)
        exchange.request) :
    Careful definitions holdings (first ++ second) := by
  intro earlier exchange later split
  rcases List.append_eq_append_iff.mp split with
    ⟨others, rfl, rest⟩ | ⟨_ | ⟨head, others⟩, rfl, rest⟩
  · exact back others exchange later rest
  · simpa using back [] exchange later rest.symm
  · obtain ⟨rfl, rfl⟩ := List.cons.inj rest
    exact front earlier exchange others rfl

theorem Careful.append (front : Careful definitions holdings first)
    (back : Careful definitions (holdings.replay first) second) :
    Careful definitions holdings (first ++ second) := by
  apply front.append_of
  intro earlier exchange later split
  rw [Holdings.replay_append]
  exact (back earlier exchange later split).mono fun _ member => List.mem_append_right _ member

theorem Careful.concat {exchange : Exchange services} (front : Careful definitions holdings first)
    (permitted : Permitted definitions (holdings.replay first) first exchange.request) :
    Careful definitions holdings (first ++ [exchange]) := by
  apply front.append_of
  intro earlier other later split
  obtain ⟨rfl, rest⟩ | ⟨_, _, nothing⟩ := List.cons_eq_append_iff.mp split
  · cases rest
    simpa using permitted
  · simp at nothing

theorem careful_registration : Careful definitions holdings (registration definition) := by
  intro earlier exchange later split
  have member : exchange ∈ registration definition := by simp [split]
  obtain ⟨pipeline, _, rfl⟩ := mem_registration.mp member
  trivial

theorem careful_sought (found : Bool) : Careful definitions holdings
    (registration definition ++ [sought definition found]) :=
  careful_registration.concat trivial

theorem permitted_create (member : definition ∈ definitions)
    (missing : holdings.indexes definition.name = none) (found : Bool) :
    Permitted definitions (holdings.replay (registration definition ++ [sought definition found]))
      (registration definition ++ [sought definition found])
      (.engine (.createIndex definition.name definition.mapping.body)) := by
  refine ⟨?_, definition, member, rfl, rfl, ?_⟩
  · simpa [Holdings.replay_append] using missing
  · intro pipeline named
    exact List.mem_append_left _ (mem_registration.mpr ⟨pipeline, named, rfl⟩)

/-- What is asked for a definition is permitted, also if it fails. -/
theorem careful_stage {front : List (Exchange services)} {call : EngineCall}
    (member : definition ∈ definitions) (stage : holdings.Stage definition front call)
    (error : EngineError) : Careful definitions holdings (front ++ [refused call error]) := by
  cases stage with
  | registering named => exact Careful.concat (by simp [Careful]) trivial
  | seeking => exact careful_registration.concat trivial
  | creating missing => exact (careful_sought false).concat (permitted_create member missing false)

theorem careful_settling (member : definition ∈ definitions) :
    Careful definitions holdings (holdings.settling definition) := by
  unfold Holdings.settling
  cases missing : holdings.indexes definition.name with
  | none =>
      have last : Careful definitions holdings
          (registration definition ++ [sought definition false] ++ [created definition]) :=
        (careful_sought false).concat (permitted_create member missing false)
      simpa using last
  | some body => exact careful_sought true

theorem careful_course {done : List IndexDefinition}
    (members : ∀ definition ∈ done, definition ∈ definitions) :
    Careful definitions holdings (holdings.course done) := by
  induction done generalizing holdings with
  | nil => simp [Careful, Holdings.course]
  | cons definition rest ih =>
      have first : Careful definitions holdings (holdings.settling definition) :=
        careful_settling (members definition List.mem_cons_self)
      exact first.append (ih fun other member => members other (List.mem_cons_of_mem _ member))

end Care

/-- How a call that creates the indexes ends, and what it leaves behind. -/
inductive Ending (definitions : List IndexDefinition) (before : Holdings)
    (trace : List (Exchange services)) : Except IndexingError (List String) → Prop
  | success :
      trace = before.course definitions →
      creations trace = before.missing definitions →
      (before.replay trace).indexes = before.completed definitions →
      Ending definitions before trace (.ok (before.missing definitions))
  /-- A call for one of the definitions fails, and those before it are settled. -/
  | failure {done rest : List IndexDefinition} {failing : IndexDefinition}
      {front : List (Exchange services)} {call : EngineCall} {error : EngineError} :
      definitions = done ++ failing :: rest →
      (before.settleAll done).Stage failing front call →
      trace = before.course done ++ (front ++ [refused call error]) →
      creations trace = before.missing done →
      (before.replay trace).indexes = before.completed done →
      Ending definitions before trace (.error (.engine error))

section Endings

variable {definitions : List IndexDefinition} {before : Holdings}
  {trace : List (Exchange services)} {outcome : Except IndexingError (List String)}

theorem careful_of_yields (run : (createAll definitions).Yields trace outcome)
    (honest : before.Honest trace) : Careful definitions before trace := by
  rcases yields_createAll_iff.mp ⟨run, honest⟩ with
    ⟨rfl, _⟩ | ⟨done, failing, rest, front, call, error, rfl, stage, rfl, _⟩
  · exact careful_course fun _ member => member
  · have first : Careful (done ++ failing :: rest) before (before.course done) :=
      careful_course fun _ member => List.mem_append_left _ member
    apply first.append
    rw [Holdings.replay_course]
    exact careful_stage (by simp) stage error

theorem ending_of_yields (distinct : (definitions.map (·.name)).Nodup)
    (run : (createAll definitions).Yields trace outcome) (honest : before.Honest trace) :
    Ending definitions before trace outcome := by
  rcases yields_createAll_iff.mp ⟨run, honest⟩ with
    ⟨rfl, rfl⟩ | ⟨done, failing, rest, front, call, error, rfl, stage, rfl, rfl⟩
  · have names : creations (before.course definitions) = before.missing definitions :=
      Holdings.creations_course distinct
    rw [names]
    exact .success rfl names (by rw [Holdings.replay_course, Holdings.indexes_settleAll])
  · have earlier : (done.map (·.name)).Nodup := by
      rw [List.map_append] at distinct
      exact distinct.of_append_left
    refine .failure rfl stage rfl ?_ ?_
    · simp [creations_append, Holdings.creations_course earlier, stage.creations_eq]
    · simp [Holdings.replay_append, Holdings.replay_course, stage.indexes_eq,
        Holdings.indexes_settleAll]

/-- Whatever fails, a call creates each index at most once, and only if it was missing. -/
theorem Ending.count (ending : Ending definitions before trace outcome)
    (distinct : (definitions.map (·.name)).Nodup) (name : String) :
    (creations trace).count name =
      if before.indexes name = none ∧ ((before.replay trace).indexes name).isSome then 1
      else 0 := by
  cases ending with
  | success _ names indexes => rw [names, indexes, Holdings.count_missing distinct]
  | failure split _ _ names indexes =>
      rw [split, List.map_append] at distinct
      rw [names, indexes, Holdings.count_missing distinct.of_append_left]

theorem Ending.kept (ending : Ending definitions before trace outcome) {name : String}
    {body : Json} (present : before.indexes name = some body) :
    (before.replay trace).indexes name = some body := by
  cases ending with
  | success _ _ indexes => rw [indexes, Holdings.completed_of_some present]
  | failure _ _ _ _ indexes => rw [indexes, Holdings.completed_of_some present]

/-- Once the definitions are settled, nothing is to be seen of a call before that. -/
theorem Ending.settleAll_eq (ending : Ending definitions before trace outcome) :
    (before.replay trace).settleAll definitions = before.settleAll definitions := by
  cases ending with
  | success course =>
      rw [course, Holdings.replay_course, Holdings.settleAll_settleAll]
  | @failure done rest failing _ _ _ split stage broken _ indexes =>
      subst split
      apply Holdings.settleAll_resumed indexes
      intro id foreign
      have unnamed : ¬∃ pipeline ∈ failing.pipeline, pipeline.id = id :=
        fun named => foreign ⟨failing, by simp, named⟩
      have earlier : ¬Holdings.Registers done id := by
        rintro ⟨definition, member, named⟩
        exact foreign ⟨definition, List.mem_append_left _ member, named⟩
      rw [broken, Holdings.replay_append, Holdings.replay_course, Holdings.replay_append,
        Holdings.replay_cons, Holdings.step_refused, Holdings.replay_nil,
        stage.pipelines_eq unnamed, Holdings.pipelines_settleAll_of_not earlier]

end Endings
end Registry
end LearningIndex
