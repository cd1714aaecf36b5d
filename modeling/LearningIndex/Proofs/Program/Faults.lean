import LearningIndex.Proofs.Program.Transcript

/-!
# Faults of services

A service may fail whenever it is asked for something.  Once one does, a program that is candid ends
with the error of that service and asks nothing more, whatever it has done before.
-/

namespace LearningIndex

namespace Service.Request

/-- The request changes what the engine holds. -/
def IsWrite : Service.Request → Prop
  | .engine (.bulk _) | .engine (.deleteByQuery _ _) | .engine (.createIndex _ _)
  | .engine (.deleteIndex _) | .engine (.putPipeline _ _) => True
  | _ => False

def IsSearch : Service.Request → Prop
  | .engine (.search _) => True
  | _ => False

/-- The request asks for a file or for the time. -/
def IsFetch : Service.Request → Prop
  | .file _ | .clock => True
  | .engine _ => False

def path? : Service.Request → Option String
  | .file path => some path
  | _ => none

theorem IsSearch.not_isWrite {request : Service.Request} (search : request.IsSearch) :
    ¬ request.IsWrite := by
  unfold IsSearch at search
  split at search
  · exact id
  · exact absurd search id

theorem IsFetch.not_isWrite {request : Service.Request} (fetch : request.IsFetch) :
    ¬ request.IsWrite := by
  cases request with
  | engine call => exact absurd fetch id
  | file path => exact id
  | clock => exact id

end Service.Request

namespace Exchange

/-- The error that a service answered with, as indexing reports it. -/
def fault? : Exchange services → Option IndexingError
  | ⟨.engine _, .error error⟩ => some (.engine error)
  | ⟨.file _, .error error⟩ => some error
  | _ => none

/-- What was found where a file was asked for. -/
def text? : Exchange services → Option (Option ByteString)
  | ⟨.file _, .ok found⟩ => some found
  | _ => none

end Exchange

section Searches

variable {trace : List (Exchange services)}
variable (searches : ∀ exchange ∈ trace, exchange.request.IsSearch)

include searches

theorem filterMap_path?_of_isSearch : trace.filterMap (·.request.path?) = [] := by
  rw [List.filterMap_eq_nil_iff]
  rintro ⟨request, reply⟩ member
  have search := searches _ member
  cases request with
  | engine call => rfl
  | file path => exact absurd search id
  | clock => exact absurd search id

theorem filterMap_text?_of_isSearch : trace.filterMap (·.text?) = [] := by
  rw [List.filterMap_eq_nil_iff]
  rintro ⟨request, reply⟩ member
  have search := searches _ member
  cases request with
  | engine call => rfl
  | file path => exact absurd search id
  | clock => exact absurd search id

end Searches

namespace Program

variable {α β : Type}

/-- Once a service fails, the program ends with the error of the service. -/
def IsCandid : Program services IndexingError α → Prop
  | .done _ => True
  | .ask request next => ∀ reply,
      (∀ error, Exchange.fault? ⟨request, reply⟩ = some error →
        next reply = .done (.error error)) ∧ (next reply).IsCandid

theorem IsCandid.andThen {program : Program services IndexingError α}
    {next : α → Program services IndexingError β} (candid : program.IsCandid)
    (later : ∀ result, (next result).IsCandid) : (program.andThen next).IsCandid := by
  induction program with
  | done outcome =>
      cases outcome with
      | ok result => exact later result
      | error error => trivial
  | ask request resume ih =>
      intro reply
      obtain ⟨failing, rest⟩ := candid reply
      refine ⟨fun error fault => ?_, ih reply rest⟩
      change (resume reply).andThen next = _
      rw [failing error fault]
      rfl

theorem isCandid_ofExcept (outcome : Except IndexingError α) : (ofExcept outcome).IsCandid :=
  trivial

/-- A fault is the outcome of the run in which it happens. -/
theorem IsCandid.outcome_eq {program : Program services IndexingError α} (candid : program.IsCandid)
    {trace : List (Exchange services)} {outcome : Except IndexingError α}
    (run : program.Yields trace outcome) {exchange : Exchange services} (member : exchange ∈ trace)
    {error : IndexingError} (fault : exchange.fault? = some error) : outcome = .error error := by
  induction run with
  | done => exact absurd member List.not_mem_nil
  | ask reply rest ih =>
      obtain ⟨failing, later⟩ := candid reply
      rcases List.mem_cons.mp member with rfl | member
      · rw [failing error fault] at rest
        exact (yields_done_iff.mp rest).2
      · exact ih later member

end Program

namespace Task

theorem isCandid_engine (call : EngineCall) : (Task.engine call).IsCandid := by
  rintro (error | answer)
  · refine ⟨fun other fault => ?_, trivial⟩
    obtain rfl := Option.some.inj fault
    rfl
  · exact ⟨fun other fault => (by cases fault), trivial⟩

theorem isCandid_file (path : String) : (Task.file path).IsCandid := by
  rintro (error | found)
  · refine ⟨fun other fault => ?_, trivial⟩
    obtain rfl := Option.some.inj fault
    rfl
  · exact ⟨fun other fault => (by cases fault), trivial⟩

theorem isCandid_clock : Task.clock.IsCandid :=
  fun _ => ⟨fun other fault => (by cases fault), trivial⟩

end Task

end LearningIndex
