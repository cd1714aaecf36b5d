import LearningIndex.Proofs.Registry.Creation

/-!
# Resuming the creation of the indexes

A call that creates the indexes may fail at any of its engine calls.  It has then created the
missing indexes of the definitions before the one it failed at, and the next call goes on from
there: once a call succeeds, nothing of the failures is left to be seen.
-/

namespace LearningIndex
namespace Registry

/-- A task is done again after each failure, until it succeeds. -/
inductive Retried {α : Type} (task : Task α) (result : α) :
    Holdings → List (Exchange services) → Prop
  | success {before : Holdings} {trace : List (Exchange services)} :
      task.Yields trace (.ok result) → before.Honest trace → Retried task result before trace
  | again {before : Holdings} {first rest : List (Exchange services)} {error : IndexingError} :
      task.Yields first (.error error) → before.Honest first →
      Retried task result (before.replay first) rest →
      Retried task result before (first ++ rest)

section Resumption

variable {definitions : List IndexDefinition} {before : Holdings}
  {trace : List (Exchange services)}

theorem replay_of_yields_ok {names : List String}
    (run : (createAll definitions).Yields trace (.ok names)) (honest : before.Honest trace) :
    before.replay trace = before.settleAll definitions := by
  rcases yields_createAll_iff.mp ⟨run, honest⟩ with ⟨rfl, _⟩ | ⟨_, _, _, _, _, _, _, _, _, same⟩
  · exact Holdings.replay_course
  · cases same

/-- However often it fails before, a call that succeeds at last leaves the definitions settled, and
each index that has come about was created once. -/
theorem Retried.settles {names : List String} (distinct : (definitions.map (·.name)).Nodup)
    (retried : Retried (createAll definitions) names before trace) :
    before.replay trace = before.settleAll definitions ∧
      ∀ name, (creations trace).count name =
        if before.indexes name = none ∧ ((before.replay trace).indexes name).isSome then 1
        else 0 := by
  induction retried with
  | success run honest =>
      exact ⟨replay_of_yields_ok run honest, (ending_of_yields distinct run honest).count distinct⟩
  | @again before first rest _ run honest _ ih =>
      have ending := ending_of_yields distinct run honest
      obtain ⟨settled, once⟩ := ih
      rw [Holdings.replay_append]
      refine ⟨settled.trans ending.settleAll_eq, fun name => ?_⟩
      rw [creations_append, List.count_append, ending.count distinct, once]
      -- What the first call creates is there for good, and what it does not is left to the others.
      cases there : before.indexes name with
      | some body => simp [ending.kept there]
      | none =>
          cases reached : (before.replay first).indexes name with
          | none => simp
          | some body =>
              have kept : ((before.replay first).settleAll definitions).indexes name =
                  some body := by
                rw [Holdings.indexes_settleAll, Holdings.completed_of_some reached]
              simp [settled, kept]

theorem yields_dropAll_ok_iff {names : List String} :
    (dropAll definitions).Yields trace (.ok names) ↔
      trace = definitions.map dropped ∧ names = definitions.map (·.name) := by
  induction definitions generalizing trace names with
  | nil => simp [dropAll]
  | cons definition rest ih =>
      simp only [dropAll, Program.bind_eq_andThen, Program.pure_eq_done]
      constructor
      · intro run
        obtain ⟨_, others, rfl, later⟩ | ⟨_, _, same⟩ := yields_call_andThen_iff.mp run
        · obtain ⟨inner, ran, same⟩ := Program.yields_andThen_map_iff.mp later
          cases inner with
          | error error => cases same
          | ok inner =>
              obtain ⟨rfl, rfl⟩ := ih.mp ran
              cases same
              exact ⟨rfl, rfl⟩
        · cases same
      · rintro ⟨rfl, rfl⟩
        refine yields_call_andThen_iff.mpr (.inl ⟨(), _, rfl, ?_⟩)
        exact Program.yields_andThen_map_iff.mpr ⟨_, ih.mpr ⟨rfl, rfl⟩, rfl⟩

theorem replay_dropped : before.replay (definitions.map dropped) =
    { before with indexes := fun name =>
        if name ∈ definitions.map (·.name) then none else before.indexes name } := by
  induction definitions generalizing before with
  | nil => simp
  | cons definition rest ih =>
      rw [List.map_cons, Holdings.replay_cons, ih, Holdings.step_dropped]
      congr 1
      funext name
      by_cases same : name = definition.name <;> simp [same]

end Resumption

/-- What holds once the indexes have been created, after any number of failures. -/
structure Resumed (definitions : List IndexDefinition) (before : Holdings)
    (trace : List (Exchange services)) : Prop where
  /-- The indexes and the pipelines are those after a call without failure. -/
  same : ∀ single names, (create ⟨true, definitions⟩).Yields single (.ok names) →
    before.Honest single → before.replay trace = before.replay single
  /-- All the indexes exist. -/
  present : ∀ definition ∈ definitions, ((before.replay trace).indexes definition.name).isSome
  /-- Each missing index was created once, and nothing else. -/
  once : ∀ name, (creations trace).count name =
    if name ∈ definitions.map (·.name) ∧ before.indexes name = none then 1 else 0
  /-- A further call creates nothing, and changes nothing if it succeeds. -/
  idle : ∀ further outcome, (create ⟨true, definitions⟩).Yields further outcome →
    (before.replay trace).Honest further →
      creations further = [] ∧
      ∀ names, outcome = .ok names →
        names = [] ∧ (before.replay trace).replay further = before.replay trace
  droppable : ∃ dropping, (drop ⟨true, definitions⟩).Yields dropping
    (.ok (definitions.map (·.name)))
  dropped : ∀ dropping names, (drop ⟨true, definitions⟩).Yields dropping (.ok names) →
    names = definitions.map (·.name) ∧
      (before.replay trace).replay dropping =
        { before.replay trace with indexes := fun name =>
            if name ∈ definitions.map (·.name) then none else (before.replay trace).indexes name }

section Resumed

variable {definitions : List IndexDefinition} {before : Holdings}
  {trace : List (Exchange services)}

/-- Once the definitions are settled, a call creates nothing, and one that succeeds changes
nothing. -/
theorem idle_of_settleAll (distinct : (definitions.map (·.name)).Nodup)
    {outcome : Except IndexingError (List String)}
    (run : (createAll definitions).Yields trace outcome)
    (honest : (before.settleAll definitions).Honest trace) :
    creations trace = [] ∧ ∀ names, outcome = .ok names →
      names = [] ∧ (before.settleAll definitions).replay trace = before.settleAll definitions := by
  cases ending_of_yields distinct run honest with
  | success course created _ =>
      have nothing : (before.settleAll definitions).missing definitions = [] :=
        Holdings.missing_settleAll fun _ member => member
      rw [nothing] at created ⊢
      refine ⟨created, ?_⟩
      rintro names ⟨⟩
      rw [course, Holdings.replay_course, Holdings.settleAll_settleAll]
      exact ⟨rfl, rfl⟩
  | failure split _ _ created _ =>
      rw [created, Holdings.missing_settleAll fun _ member => by simp [split, member]]
      exact ⟨rfl, nofun⟩

theorem Retried.resumed {names : List String} (distinct : (definitions.map (·.name)).Nodup)
    (retried : Retried (create ⟨true, definitions⟩) names before trace) :
    Resumed definitions before trace := by
  obtain ⟨settled, once⟩ := Retried.settles distinct retried
  constructor
  case same =>
    intro single result run honest
    rw [settled, replay_of_yields_ok run honest]
  case present =>
    intro definition member
    rw [settled]
    exact Holdings.isSome_settleAll member
  case once =>
    intro name
    rw [once, settled, Holdings.indexes_settleAll]
    apply if_congr _ rfl rfl
    rw [Holdings.isSome_completed_iff]
    constructor
    · rintro ⟨missing, present | member⟩
      · simp [missing] at present
      · exact ⟨member, missing⟩
    · rintro ⟨member, missing⟩
      exact ⟨missing, .inr member⟩
  case idle =>
    intro further outcome run honest
    rw [settled] at honest ⊢
    exact idle_of_settleAll distinct run honest
  case droppable => exact ⟨_, yields_dropAll_ok_iff.mpr ⟨rfl, rfl⟩⟩
  case dropped =>
    intro dropping result run
    obtain ⟨rfl, rfl⟩ := yields_dropAll_ok_iff.mp run
    exact ⟨rfl, replay_dropped⟩

end Resumed

/-- With an honest engine whose failing calls have no effect, the indexes of differently named
definitions can be created.  A call asks only what is permitted, and it settles all the definitions,
or those before the one that it fails at.  Once a call succeeds, the failures before it make no
difference. -/
theorem create_resumes (definitions : List IndexDefinition)
    (distinct : (definitions.map (·.name)).Nodup) (before : Holdings) :
    (∃ trace, (create ⟨true, definitions⟩).Yields trace (.ok (before.missing definitions)) ∧
        before.Honest trace) ∧
      (∀ trace outcome, (create ⟨true, definitions⟩).Yields trace outcome →
        before.Honest trace →
          Careful definitions before trace ∧ Ending definitions before trace outcome) ∧
      ∀ trace names, Retried (create ⟨true, definitions⟩) names before trace →
        Resumed definitions before trace := by
  refine ⟨?_, ?_, ?_⟩
  · obtain ⟨run, honest⟩ := yields_createAll_iff.mpr (.inl ⟨rfl, rfl⟩)
    rw [Holdings.creations_course distinct] at run
    exact ⟨before.course definitions, run, honest⟩
  · intro trace outcome run honest
    exact ⟨careful_of_yields run honest, ending_of_yields distinct run honest⟩
  · intro trace names retried
    exact retried.resumed distinct

namespace Sample

def courses : IndexDefinition := ⟨"courses", { version := "1" }, some ⟨"split", .null⟩⟩

def mesh : IndexDefinition := ⟨"mesh", { version := "1" }, none⟩

def stocked : Holdings := ⟨fun name => if name = "mesh" then some .null else none, fun _ => none⟩

/-- A call that fails to create the first index. -/
def broken : List (Exchange services) :=
  [registered ⟨"split", .null⟩, sought courses false,
    refused (.createIndex "courses" courses.mapping.body) (.connection "reset")]

/-- The call after it. -/
def mended : List (Exchange services) :=
  [registered ⟨"split", .null⟩, sought courses false, created courses, sought mesh true]

theorem create_resumes_broken :
    ([courses, mesh].map (·.name)).Nodup ∧
      Retried (create ⟨true, [courses, mesh]⟩) ["courses"] stocked (broken ++ mended) ∧
      Resumed [courses, mesh] stocked (broken ++ mended) := by
  have distinct : ([courses, mesh].map (·.name)).Nodup := by decide
  have failed : (create ⟨true, [courses, mesh]⟩).Yields broken
      (.error (.engine (.connection "reset"))) :=
    .ask _ (.ask _ (.ask _ (.done _)))
  have succeeded : (create ⟨true, [courses, mesh]⟩).Yields mended (.ok ["courses"]) :=
    .ask _ (.ask _ (.ask _ (.ask _ (.done _))))
  have retried : Retried (create ⟨true, [courses, mesh]⟩) ["courses"] stocked
      (broken ++ mended) := by
    apply Retried.again failed
    · simp [broken, stocked, courses]
    · apply Retried.success succeeded
      simp [mended, broken, stocked, courses, mesh]
  exact ⟨distinct, retried, (create_resumes [courses, mesh] distinct stocked).2.2 _ _ retried⟩

end Sample
end Registry
end LearningIndex
