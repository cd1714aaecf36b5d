import LearningIndex.Calendar.Timestamp
import LearningIndex.Indexing.Worker

/-!
# Rehearsals

Services that answer from a script, with which the indexers are rehearsed without an engine.  The
script of an operation is a list of answers that are used one after the other; when it is used up,
each operation has an answer of its own, which reports success and finds nothing.  Every request is
kept in a journal, also when it fails.
-/

namespace LearningIndex
namespace Rehearsal

/-- An answer in the script of an operation. -/
inductive Line where
  | value (answer : Json)
  | failure (error : EngineError)

/-- The operations that have scripts of their own. -/
inductive Part where
  | search
  | scroll
  | clearScroll
  | bulk
  | deleteByQuery
  | indexExists
  | createIndex
  | deleteIndex
  | putPipeline
  | health
deriving DecidableEq, Repr

/-- The part that plays an operation. -/
def partOf : EngineCall → Part
  | .search _ => .search
  | .scroll _ _ => .scroll
  | .clearScroll _ => .clearScroll
  | .bulk _ => .bulk
  | .deleteByQuery _ _ => .deleteByQuery
  | .indexExists _ => .indexExists
  | .createIndex _ _ => .createIndex
  | .deleteIndex _ => .deleteIndex
  | .putPipeline _ _ => .putPipeline
  | .health => .health

/-- What was asked. -/
inductive Entry where
  | engine (call : EngineCall)
  | file (path : String)
  | expand (courseId : Int)
  | dispatch (message : IndexMessage)

/-- What a scripted file holds. -/
inductive ScriptedFile where
  | text (bytes : ByteString)
  | failure (error : IndexingError)

/-- The state of a rehearsal. -/
structure Stage where
  /-- The answers that are left, for each part in order. -/
  script : List (Part × Line) := []
  indexes : List String := []
  files : List (String × ScriptedFile) := []
  time : Calendar.Instant := Calendar.Instant.epoch
  /-- The number of messages that are still accepted; all of them where there is no number. -/
  accepts : Option Nat := none
  journal : List Entry := []

/-- Takes the first line of a part from a script. -/
def takeLine (part : Part) : List (Part × Line) → Option Line × List (Part × Line)
  | [] => (none, [])
  | (other, line) :: rest =>
    if other = part then (some line, rest)
    else
      let (found, rest) := takeLine part rest
      (found, (other, line) :: rest)

/-- The names of the aggregations that the body of a query asks for. -/
def aggregationNames (body : Json) : List String :=
  match (body.get? "aggs").bind Json.object? with
  | some fields => fields.map (·.1)
  | none => []

def emptySearch (body : Json) : Json :=
  let empty := Json.singleton "buckets" (.array [])
  .ofFields [
    ("hits", .singleton "hits" (.array [])),
    ("aggregations", .ofFields ((aggregationNames body).map fun name => (name, empty)))]

def emptyPage (scrollId : String) : Json :=
  .ofFields [
    ("_scroll_id", .string scrollId), ("hits", .singleton "hits" (.array []))]

/-- The value that an operation answers if it has no script. -/
def plainAnswer (indexes : List String) : EngineCall → Json
  | .search request => emptySearch request.query.body
  | .scroll scrollId _ => emptyPage scrollId
  | .bulk _ => .object []
  | .deleteByQuery _ _ => .object []
  | .indexExists index => .bool (indexes.contains index)
  | .health => .bool true
  | _ => .null

/-- The answer of an operation that a value stands for.  What is no truth value says nothing to a
question, and what is no record is no answer to a bulk request or a deletion. -/
def readAnswer (indexes : List String) (call : EngineCall) (value : Json) :
    Except EngineError call.Answer :=
  match call with
  | .search _ => .ok value
  | .scroll _ _ => .ok value
  | .clearScroll _ => .ok ()
  | .bulk _ => (BulkReply.ofJson value).mapError fun fault => .parse fault.message
  | .deleteByQuery _ _ => (DeleteReply.ofJson value).mapError fun fault => .parse fault.message
  | .indexExists index => .ok (value.bool?.getD (indexes.contains index))
  | .createIndex _ _ => .ok ()
  | .deleteIndex _ => .ok ()
  | .putPipeline _ _ => .ok ()
  | .health => .ok (value.bool?.getD true)

/-- The indexes after an operation that succeeded. -/
def indexesAfter (indexes : List String) : EngineCall → List String
  | .createIndex index _ => if indexes.contains index then indexes else indexes ++ [index]
  | .deleteIndex index => indexes.filter (· != index)
  | _ => indexes

namespace Stage

/-- The stage with one more entry in its journal. -/
def note (stage : Stage) (entry : Entry) : Stage :=
  { stage with journal := entry :: stage.journal }

def playEngine (call : EngineCall) (stage : Stage) : Except EngineError call.Answer × Stage :=
  let (line, script) := takeLine (partOf call) stage.script
  let stage := { stage.note (.engine call) with script }
  let reply :=
    match line with
    | some (.failure error) => .error error
    | some (.value value) => readAnswer stage.indexes call value
    | none => readAnswer stage.indexes call (plainAnswer stage.indexes call)
  let indexes :=
    match reply with
    | .ok _ => indexesAfter stage.indexes call
    | .error _ => stage.indexes
  (reply, { stage with indexes })

def playFile (path : String) (stage : Stage) :
    Except IndexingError (Option ByteString) × Stage :=
  let reply :=
    match stage.files.lookup path with
    | some (.text bytes) => .ok (some bytes)
    | some (.failure error) => .error error
    | none => .ok none
  (reply, stage.note (.file path))

/-- Plays the taking of a message, of which only so many are accepted. -/
def playDispatch (message : IndexMessage) (stage : Stage) : Except IndexingError Unit × Stage :=
  match stage.accepts with
  | some 0 => (.error (.dispatch "queue full"), stage)
  | some (left + 1) => (.ok (), { stage.note (.dispatch message) with accepts := some left })
  | none => (.ok (), stage.note (.dispatch message))

def play (question : Service.Request) (stage : Stage) : Service.Reply question × Stage :=
  match question with
  | .engine call => stage.playEngine call
  | .file path => stage.playFile path
  | .clock => (stage.time, stage)

def playProducer (question : Dispatching.Request) (stage : Stage) :
    Dispatching.Reply question × Stage :=
  match question with
  | .service request => stage.play request
  | .dispatch message => stage.playDispatch message

/-- Runs a program over the services on the stage. -/
def perform {ε α : Type} (program : Program services ε α) (stage : Stage) :
    Except ε α × Stage :=
  program.run (fun question stage => play question stage) stage

/-- Runs a producer of messages on the stage. -/
def performProducer {α : Type} (producer : Producer α) (stage : Stage) :
    Except IndexingError α × Stage :=
  producer.run (fun question stage => playProducer question stage) stage

end Stage
end Rehearsal
end LearningIndex
