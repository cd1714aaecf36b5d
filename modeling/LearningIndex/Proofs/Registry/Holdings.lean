import LearningIndex.Indexing.Registry
import LearningIndex.Proofs.Program.Trace
import Mathlib.Logic.Function.Basic

/-!
# What the engine holds of indexes and pipelines

A call that succeeds registers a pipeline, creates an index or deletes one; a call that fails has no
effect.  An engine is honest if it says of an index that it exists exactly if it does.  Which calls
fail is left open.
-/

namespace LearningIndex

/-- The indexes and the pipelines of an engine. -/
@[ext]
structure Holdings where
  indexes : String → Option Json
  pipelines : String → Option Json

namespace Registry

/-- The exchange by which a call succeeds. -/
def answered (call : EngineCall) (answer : call.Answer) : Exchange services :=
  ⟨.engine call, (.ok answer : Except EngineError call.Answer)⟩

/-- The exchange by which a call fails. -/
def refused (call : EngineCall) (error : EngineError) : Exchange services :=
  ⟨.engine call, (.error error : Except EngineError call.Answer)⟩

/-- The exchange by which a pipeline is registered. -/
def registered (pipeline : Pipeline) : Exchange services :=
  answered (.putPipeline pipeline.id pipeline.body) ()

def sought (definition : IndexDefinition) (found : Bool) : Exchange services :=
  answered (.indexExists definition.name) found

def created (definition : IndexDefinition) : Exchange services :=
  answered (.createIndex definition.name definition.mapping.body) ()

def dropped (definition : IndexDefinition) : Exchange services :=
  answered (.deleteIndex definition.name) ()

def created? : Exchange services → Option String
  | ⟨.engine (.createIndex name _), .ok ()⟩ => some name
  | _ => none

/-- The names of the indexes that are created in a trace. -/
def creations (trace : List (Exchange services)) : List String :=
  trace.filterMap created?

/-- The exchanges by which the pipeline of an index is registered. -/
def registration (definition : IndexDefinition) : List (Exchange services) :=
  (definition.pipeline.map registered).toList

theorem creations_append (first second : List (Exchange services)) :
    creations (first ++ second) = creations first ++ creations second :=
  List.filterMap_append

@[simp]
theorem creations_nil : creations [] = [] := rfl

@[simp]
theorem creations_sought (definition : IndexDefinition) (found : Bool) :
    creations [sought definition found] = [] := rfl

@[simp]
theorem creations_refused (call : EngineCall) (error : EngineError) :
    creations [refused call error] = [] := by
  cases call <;> rfl

@[simp]
theorem creations_registration (definition : IndexDefinition) :
    creations (registration definition) = [] := by
  unfold registration
  cases definition.pipeline <;> rfl

theorem mem_registration {definition : IndexDefinition} {exchange : Exchange services} :
    exchange ∈ registration definition ↔ ∃ pipeline ∈ definition.pipeline,
      registered pipeline = exchange := by
  simp [registration]

end Registry

namespace Holdings

open Registry

/-- The holdings after an exchange. -/
def step (holdings : Holdings) : Exchange services → Holdings
  | ⟨.engine (.putPipeline id body), .ok ()⟩ =>
      { holdings with pipelines := Function.update holdings.pipelines id (some body) }
  | ⟨.engine (.createIndex name body), .ok ()⟩ =>
      { holdings with indexes := Function.update holdings.indexes name (some body) }
  | ⟨.engine (.deleteIndex name), .ok ()⟩ =>
      { holdings with indexes := Function.update holdings.indexes name none }
  | _ => holdings

/-- The holdings after a trace. -/
def replay (holdings : Holdings) (trace : List (Exchange services)) : Holdings :=
  trace.foldl step holdings

/-- If an exchange says whether an index exists, what it says is true. -/
def Supports (holdings : Holdings) : Exchange services → Prop
  | ⟨.engine (.indexExists name), .ok found⟩ => found = (holdings.indexes name).isSome
  | _ => True

/-- Whatever a trace says of the existence of an index is true when it is said. -/
def Honest : Holdings → List (Exchange services) → Prop
  | _, [] => True
  | holdings, exchange :: rest => holdings.Supports exchange ∧ (holdings.step exchange).Honest rest

section Exchanges

variable (holdings : Holdings)

@[simp]
theorem step_registered (pipeline : Pipeline) :
    holdings.step (registered pipeline) =
      { holdings with
        pipelines := Function.update holdings.pipelines pipeline.id (some pipeline.body) } := rfl

@[simp]
theorem step_sought (definition : IndexDefinition) (found : Bool) :
    holdings.step (sought definition found) = holdings := rfl

@[simp]
theorem step_created (definition : IndexDefinition) :
    holdings.step (created definition) =
      { holdings with
        indexes := Function.update holdings.indexes definition.name
          (some definition.mapping.body) } := rfl

@[simp]
theorem step_dropped (definition : IndexDefinition) :
    holdings.step (dropped definition) =
      { holdings with
        indexes := Function.update holdings.indexes definition.name none } := rfl

@[simp]
theorem step_refused (call : EngineCall) (error : EngineError) :
    holdings.step (refused call error) = holdings := by
  cases call <;> rfl

@[simp]
theorem supports_registered (pipeline : Pipeline) : holdings.Supports (registered pipeline) :=
  trivial

@[simp]
theorem supports_sought (definition : IndexDefinition) (found : Bool) :
    holdings.Supports (sought definition found) ↔
      found = (holdings.indexes definition.name).isSome :=
  Iff.rfl

@[simp]
theorem supports_created (definition : IndexDefinition) : holdings.Supports (created definition) :=
  trivial

@[simp]
theorem supports_refused (call : EngineCall) (error : EngineError) :
    holdings.Supports (refused call error) := by
  cases call <;> trivial

@[simp]
theorem replay_nil : holdings.replay [] = holdings := rfl

@[simp]
theorem replay_cons (exchange : Exchange services) (trace : List (Exchange services)) :
    holdings.replay (exchange :: trace) = (holdings.step exchange).replay trace := rfl

theorem replay_append (first second : List (Exchange services)) :
    holdings.replay (first ++ second) = (holdings.replay first).replay second :=
  List.foldl_append

@[simp]
theorem honest_nil : holdings.Honest [] := trivial

@[simp]
theorem honest_cons {exchange : Exchange services} {trace : List (Exchange services)} :
    holdings.Honest (exchange :: trace) ↔
      holdings.Supports exchange ∧ (holdings.step exchange).Honest trace :=
  Iff.rfl

end Exchanges

theorem honest_append {holdings : Holdings} {first second : List (Exchange services)} :
    holdings.Honest (first ++ second) ↔
      holdings.Honest first ∧ (holdings.replay first).Honest second := by
  induction first generalizing holdings with
  | nil => simp
  | cons exchange rest ih => simp [ih, and_assoc]

section Registration

variable (holdings : Holdings) (definition : IndexDefinition)

theorem honest_registration : holdings.Honest (registration definition) := by
  unfold registration
  cases definition.pipeline <;> simp

@[simp]
theorem indexes_registration :
    (holdings.replay (registration definition)).indexes = holdings.indexes := by
  unfold registration
  cases definition.pipeline <;> rfl

end Registration
end Holdings
end LearningIndex
