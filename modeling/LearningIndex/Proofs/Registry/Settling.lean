import LearningIndex.Proofs.Registry.Holdings
import Mathlib.Data.List.Nodup

/-!
# Settled definitions

A definition is settled once its pipeline is registered and its index exists.  Settling some
definitions again, or going on where a part of them has been settled, comes to the same as settling
all of them at once.
-/

namespace LearningIndex
namespace Holdings

open Registry

/-- The exchanges by which the pipeline of a definition is registered and its index looked for and,
if it is missing, created. -/
def settling (holdings : Holdings) (definition : IndexDefinition) : List (Exchange services) :=
  registration definition ++
    if (holdings.indexes definition.name).isSome then [sought definition true]
    else [sought definition false, created definition]

/-- The holdings once a definition is settled. -/
def settle (holdings : Holdings) (definition : IndexDefinition) : Holdings :=
  holdings.replay (holdings.settling definition)

/-- The exchanges by which some definitions are settled, one after the other. -/
def course : Holdings → List IndexDefinition → List (Exchange services)
  | _, [] => []
  | holdings, definition :: rest =>
      holdings.settling definition ++ (holdings.settle definition).course rest

/-- The holdings once some definitions are settled. -/
def settleAll (holdings : Holdings) (definitions : List IndexDefinition) : Holdings :=
  definitions.foldl settle holdings

/-- What has been exchanged for a definition, and the call that comes next. -/
inductive Stage (holdings : Holdings) (definition : IndexDefinition) :
    List (Exchange services) → EngineCall → Prop
  | registering {pipeline : Pipeline} : pipeline ∈ definition.pipeline →
      Stage holdings definition [] (.putPipeline pipeline.id pipeline.body)
  | seeking : Stage holdings definition (registration definition) (.indexExists definition.name)
  | creating : holdings.indexes definition.name = none →
      Stage holdings definition (registration definition ++ [sought definition false])
        (.createIndex definition.name definition.mapping.body)

/-- The indexes of the holdings and, where there is none of the name, the one of the first
definition with that name. -/
def completed (holdings : Holdings) (definitions : List IndexDefinition) (name : String) :
    Option Json :=
  (holdings.indexes name).or
    ((definitions.find? fun definition => definition.name == name).map (·.mapping.body))

/-- The names of the definitions whose index does not exist. -/
def missing (holdings : Holdings) (definitions : List IndexDefinition) : List String :=
  (definitions.map (·.name)).filter fun name => (holdings.indexes name).isNone

/-- One of the definitions names a pipeline with the id. -/
def Registers (definitions : List IndexDefinition) (id : String) : Prop :=
  ∃ definition ∈ definitions, ∃ pipeline ∈ definition.pipeline, pipeline.id = id

section Settling

variable {holdings other : Holdings} {definition : IndexDefinition}
  {definitions : List IndexDefinition}

@[simp]
theorem settleAll_cons : holdings.settleAll (definition :: definitions) =
    (holdings.settle definition).settleAll definitions := rfl

theorem creations_settling :
    creations (holdings.settling definition) =
      if (holdings.indexes definition.name).isNone then [definition.name] else [] := by
  unfold settling
  cases holdings.indexes definition.name with
  | none =>
      simp [creations_append]
      rfl
  | some body => simp [creations_append]

theorem indexes_settle :
    (holdings.settle definition).indexes = Function.update holdings.indexes definition.name
      (some ((holdings.indexes definition.name).getD definition.mapping.body)) := by
  unfold settle settling
  rw [replay_append]
  cases present : holdings.indexes definition.name with
  | none => simp
  | some body =>
      have same := Function.update_eq_self definition.name holdings.indexes
      rw [present] at same
      simp [same]

theorem pipelines_settle :
    (holdings.settle definition).pipelines =
      (holdings.replay (registration definition)).pipelines := by
  unfold settle settling
  rw [replay_append]
  split <;> rfl

theorem indexes_settleAll :
    (holdings.settleAll definitions).indexes = holdings.completed definitions := by
  induction definitions generalizing holdings with
  | nil =>
      funext name
      simp [settleAll, completed]
  | cons definition rest ih =>
      funext name
      rw [settleAll_cons, ih, completed, completed, indexes_settle]
      by_cases same : definition.name = name
      · subst same
        cases holdings.indexes definition.name <;> simp
      · simp [Function.update_of_ne (Ne.symm same), same]

theorem replay_course : holdings.replay (holdings.course definitions) =
    holdings.settleAll definitions := by
  induction definitions generalizing holdings with
  | nil => rfl
  | cons definition rest ih =>
      rw [course, replay_append, ← settle, ih]
      rfl

theorem pipelines_registration (definition : IndexDefinition) (id : String) :
    (∃ pipeline ∈ definition.pipeline, pipeline.id = id ∧
        ∀ holdings : Holdings, (holdings.replay (registration definition)).pipelines id =
          some pipeline.body) ∨
      (¬∃ pipeline ∈ definition.pipeline, pipeline.id = id) ∧
        ∀ holdings : Holdings, (holdings.replay (registration definition)).pipelines id =
          holdings.pipelines id := by
  unfold registration
  cases definition.pipeline with
  | none => simp
  | some pipeline =>
      by_cases same : pipeline.id = id
      · subst same
        simp
      · simp [same, Function.update_of_ne (Ne.symm same)]

/-- What pipelines there are once some definitions are settled depends only on those with other
ids. -/
theorem pipelines_settleAll_congr
    (agree : ∀ id, ¬Registers definitions id → holdings.pipelines id = other.pipelines id) :
    (holdings.settleAll definitions).pipelines = (other.settleAll definitions).pipelines := by
  induction definitions generalizing holdings other with
  | nil =>
      funext id
      exact agree id (by simp [Registers])
  | cons definition rest ih =>
      apply ih
      intro id foreign
      rw [pipelines_settle, pipelines_settle]
      rcases pipelines_registration definition id with
        ⟨pipeline, _, _, registered⟩ | ⟨unnamed, kept⟩
      · rw [registered, registered]
      · rw [kept, kept]
        apply agree
        rintro ⟨found, member, named⟩
        rcases List.mem_cons.mp member with rfl | member
        · exact unnamed named
        · exact foreign ⟨found, member, named⟩

theorem pipelines_settleAll_of_not {id : String} (foreign : ¬Registers definitions id) :
    (holdings.settleAll definitions).pipelines id = holdings.pipelines id := by
  induction definitions generalizing holdings with
  | nil => rfl
  | cons definition rest ih =>
      rw [settleAll_cons, ih, pipelines_settle]
      · rcases pipelines_registration definition id with
          ⟨pipeline, named, same, _⟩ | ⟨_, kept⟩
        · exact absurd ⟨definition, List.mem_cons_self, pipeline, named, same⟩ foreign
        · exact kept holdings
      · rintro ⟨found, member, named⟩
        exact foreign ⟨found, List.mem_cons_of_mem _ member, named⟩

end Settling

section Resuming

variable {holdings : Holdings} {definition : IndexDefinition} {definitions : List IndexDefinition}
  {front : List (Exchange services)} {call : EngineCall}

theorem Stage.creations_eq (stage : holdings.Stage definition front call) :
    creations front = [] := by
  cases stage <;> simp [creations_append]

theorem Stage.indexes_eq (stage : holdings.Stage definition front call) :
    (holdings.replay front).indexes = holdings.indexes := by
  cases stage <;> simp [replay_append]

theorem Stage.pipelines_eq (stage : holdings.Stage definition front call) {id : String}
    (foreign : ¬∃ pipeline ∈ definition.pipeline, pipeline.id = id) :
    (holdings.replay front).pipelines id = holdings.pipelines id := by
  have kept : (holdings.replay (registration definition)).pipelines id = holdings.pipelines id := by
    rcases pipelines_registration definition id with ⟨pipeline, named, same, _⟩ | ⟨_, kept⟩
    · exact absurd ⟨pipeline, named, same⟩ foreign
    · exact kept holdings
  cases stage with
  | registering => rfl
  | seeking => exact kept
  | creating => simpa [replay_append] using kept

theorem creations_course (distinct : (definitions.map (·.name)).Nodup) :
    creations (holdings.course definitions) = holdings.missing definitions := by
  induction definitions generalizing holdings with
  | nil => rfl
  | cons definition rest ih =>
      obtain ⟨fresh, distinct⟩ := List.nodup_cons.mp distinct
      have others : (holdings.settle definition).missing rest = holdings.missing rest := by
        apply List.filter_congr
        intro name member
        have differs : name ≠ definition.name := by
          rintro rfl
          exact fresh member
        rw [indexes_settle, Function.update_of_ne differs]
      rw [course, creations_append, ih distinct, others, creations_settling, missing, missing,
        List.map_cons, List.filter_cons]
      split <;> rfl

theorem completed_of_some {name : String} {body : Json}
    (present : holdings.indexes name = some body) :
    holdings.completed definitions name = some body := by
  simp [completed, present]

theorem isSome_completed_iff {name : String} :
    (holdings.completed definitions name).isSome ↔
      (holdings.indexes name).isSome ∨ name ∈ definitions.map (·.name) := by
  simp [completed, List.mem_map]

theorem count_missing (distinct : (definitions.map (·.name)).Nodup) (name : String) :
    (holdings.missing definitions).count name =
      if holdings.indexes name = none ∧ (holdings.completed definitions name).isSome then 1
      else 0 := by
  have member : name ∈ holdings.missing definitions ↔
      holdings.indexes name = none ∧ (holdings.completed definitions name).isSome := by
    rw [isSome_completed_iff, missing, List.mem_filter, Option.isNone_iff_eq_none]
    constructor
    · rintro ⟨member, missing⟩
      exact ⟨missing, .inr member⟩
    · rintro ⟨missing, present | member⟩
      · simp [missing] at present
      · exact ⟨member, missing⟩
  have once : (holdings.missing definitions).Nodup := distinct.filter _
  rw [List.Nodup.count once]
  exact if_congr member rfl rfl

/-- Completing the indexes for more definitions makes no difference to those that are already
there. -/
theorem completed_append {middle : Holdings} {done rest : List IndexDefinition}
    (reached : middle.indexes = holdings.completed done) :
    middle.completed (done ++ rest) = holdings.completed (done ++ rest) := by
  funext name
  simp only [completed, reached, List.find?_append]
  cases holdings.indexes name <;>
    cases done.find? (fun definition => definition.name == name) <;> simp

/-- A part of the definitions that has been settled before makes no difference in the end. -/
theorem settleAll_resumed {middle : Holdings} {done rest : List IndexDefinition}
    (reached : middle.indexes = holdings.completed done)
    (kept : ∀ id, ¬Registers (done ++ rest) id → middle.pipelines id = holdings.pipelines id) :
    middle.settleAll (done ++ rest) = holdings.settleAll (done ++ rest) := by
  apply Holdings.ext
  · rw [indexes_settleAll, indexes_settleAll, completed_append reached]
  · exact pipelines_settleAll_congr kept

theorem settleAll_settleAll :
    (holdings.settleAll definitions).settleAll definitions = holdings.settleAll definitions := by
  have again : (holdings.settleAll definitions).settleAll (definitions ++ []) =
      holdings.settleAll (definitions ++ []) := by
    apply settleAll_resumed indexes_settleAll
    intro id foreign
    rw [List.append_nil] at foreign
    exact pipelines_settleAll_of_not foreign
  simpa using again

theorem isSome_settleAll (member : definition ∈ definitions) :
    ((holdings.settleAll definitions).indexes definition.name).isSome := by
  rw [indexes_settleAll, isSome_completed_iff]
  exact .inr (List.mem_map_of_mem member)

theorem missing_settleAll {done : List IndexDefinition}
    (members : ∀ definition ∈ done, definition ∈ definitions) :
    (holdings.settleAll definitions).missing done = [] := by
  simp only [missing, List.filter_eq_nil_iff, List.mem_map]
  rintro _ ⟨definition, member, rfl⟩ absent
  have there : ((holdings.settleAll definitions).indexes definition.name).isSome :=
    isSome_settleAll (members definition member)
  simp [Option.isNone_iff_eq_none.mp absent] at there

end Resuming
end Holdings
end LearningIndex
