import LearningIndex.Command.Arguments
import LearningIndex.Command.EnvironmentFile
import LearningIndex.Command.Operations
import LearningIndex.Command.Settings
import LearningIndex.Command.Wiring
import LearningIndex.Storage.Snapshot

/-!
# Runs

A run reads the environment file, the arguments and the settings, makes sure that the engine is
usable, loads the entities and does what the command says.  Results of a search are printed; errors
in the settings are printed as errors, and every other error shows in the exit status.
-/

namespace LearningIndex

/-- What a run leaves behind. -/
structure RunOutcome where
  exitCode : Nat := 0
  output : String := ""
  errors : String := ""
deriving DecidableEq, Repr

namespace Run

/-- The path of the environment file. -/
def environmentFile : String := ".env"

def loadEnvironment {ε : Type} (environment : List (String × String)) :
    Program machine ε (List (String × String)) := do
  match ← Machine.read environmentFile with
  | .ok bytes => return EnvironmentFile.extend environment bytes
  | .error _ => return environment

/-- Opens the connection to the engine, if searching is enabled, and makes sure that the engine is
usable. -/
def connect (settings : SearchSettings) : Program machine RunError (Option Http.Connection) := do
  if !settings.isEnabled then return none
  let connection ← Program.ofExcept ((Http.Connection.ofSettings settings).mapError fun error =>
    .config ("Failed to create OpenSearch client: " ++ error.message))
  let report ← connection.perform .health
  match report with
  | .error error => .fail (.config ("OpenSearch health check failed: " ++ error.message))
  | .ok false => .fail (.config "OpenSearch cluster is unhealthy")
  | .ok true => return some connection

/-- The results of a search as they are printed. -/
def showHits (hits : List CourseHit) : String :=
  (Json.array (hits.map CourseHit.toJson)).indented ++ "\n"

/-- Does what a command says; gives what is printed. -/
def perform (deployment : Deployment) : Command → Operation String
  | .createIndexes => do
    let _ ← Operation.createIndexes deployment
    return ""
  | .dropIndexes => do
    let _ ← Operation.dropIndexes deployment
    return ""
  | .reconcile mode => do
    let _ ← Operation.reconcile deployment mode
    return ""
  | .indexLearningMaterials ids force => do
    let _ ← Operation.indexLearningMaterials deployment ids force
    return ""
  | .indexCourses ids => do
    let _ ← Operation.indexCourses deployment ids
    return ""
  | .indexMesh ids => do
    let _ ← Operation.indexMesh deployment ids
    return ""
  | .searchCurriculum text size => do
    let hits ← Operation.searchCurriculum deployment text size
    return showHits hits

def runCommand (settings : Settings) (command : Command) : Program machine RunError String := do
  let connection ← connect settings.search
  let snapshot ← (Storage.loadSnapshot settings.dataDirectory).mapError RunError.indexing
  let deployment := Deployment.new connection.isSome settings.search.scrollKeepAlive
    settings.search.uploadLimit (.of snapshot)
  let wiring : Wiring := ⟨connection, settings.dataDirectory⟩
  wiring.lower (perform deployment command)

/-- The outcome of a command. -/
def outcomeOf : Except RunError String → RunOutcome
  | .ok output => { output }
  | .error error => { exitCode := error.exitCode }

/-- Runs the program with an environment and arguments. -/
def run {ε : Type} (environment : List (String × String)) (arguments : List String) :
    Program machine ε RunOutcome := do
  let environment ← loadEnvironment environment
  match Arguments.parse arguments with
  | .error usage => return { exitCode := usage.exitCode }
  | .ok invocation =>
    match Settings.ofEnvironment fun name => environment.lookup name with
    | .error error => return { exitCode := 1, errors := "Error: " ++ error.message ++ "\n" }
    | .ok settings =>
      let directory := invocation.dataDirectory.getD settings.dataDirectory
      let result ← (runCommand { settings with dataDirectory := directory }
        invocation.command).attempt
      return outcomeOf result

end Run
end LearningIndex
