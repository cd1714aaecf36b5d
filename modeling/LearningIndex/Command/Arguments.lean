import LearningIndex.Indexing.Reconciliation
import LearningIndex.Number.Word
import LearningIndex.Text.Basic

/-!
# Arguments

The arguments of the program are a command, its operands and options.  Options may stand anywhere
after the command, and the directory of the data may also be given before it.  An option with a
value takes it from the next argument or after an equals sign.  After two dashes only operands
follow.

Help is given where it is asked for, unless something that stands before is wrong.
-/

namespace LearningIndex

/-- What the program is asked to do. -/
inductive Command where
  | createIndexes
  | dropIndexes
  | reconcile (mode : ReconciliationMode)
  /-- Index learning materials, all that have a file where none is named. -/
  | indexLearningMaterials (ids : List Int) (force : Bool)
  /-- Index courses, all where none is named. -/
  | indexCourses (ids : List Int)
  /-- Index descriptors, all where none is named. -/
  | indexMesh (ids : List String)
  | searchCurriculum (text : String) (size : Nat)
deriving DecidableEq, Repr

/-- A command and what it works on. -/
structure Invocation where
  command : Command
  dataDirectory : Option String
deriving DecidableEq, Repr

/-- Why nothing is done. -/
inductive Usage where
  | help
  | wrong
deriving DecidableEq, Repr

/-- The exit status of the process when nothing is done. -/
def Usage.exitCode : Usage → Nat
  | help => 0
  | wrong => 2

namespace Arguments

/-- What may follow a command, or stand before one. -/
structure Grammar where
  /-- The options without a value. -/
  flags : List String := []
  /-- The options with a value, each with the values that it takes. -/
  options : List (String × (String → Bool)) := []
  /-- The largest number of operands; any number of them where there is none. -/
  most : Option Nat := some 0
  isOperand : String → Bool := fun _ => true
  /-- The names of commands, with which the reading ends. -/
  commands : List String := []

/-- What was read. -/
structure Parsed where
  flags : List String := []
  options : List (String × String) := []
  operands : List String := []
  /-- The option that was read last, with its value if that was read already; neither was
  checked. -/
  pending : Option (String × Option String) := none
deriving DecidableEq, Repr

/-- Checks the option that was read last: its value, and that it does not come twice. -/
def settle (grammar : Grammar) (parsed : Parsed) : Except Usage Parsed :=
  match parsed.pending with
  | none => .ok parsed
  | some (_, none) => .error .wrong
  | some (name, some value) =>
    let isTaken := (grammar.options.lookup name).any fun accepts => accepts value
    if isTaken && (parsed.options.lookup name).isNone then
      .ok { parsed with options := parsed.options ++ [(name, value)], pending := none }
    else .error .wrong

/-- Splits a long option into its name and the value after an equals sign. -/
def splitLong (text : List Char) : String × Option String :=
  match Text.splitAtMark '=' text with
  | [] => ("", none)
  | [name] => (String.ofList name, none)
  | name :: _ =>
    (String.ofList name, some (String.ofList (text.drop (name.length + 1))))

def readLong (grammar : Grammar) (parsed : Parsed) (name : String) (value : Option String) :
    Except Usage Parsed := do
  if (grammar.options.lookup name).isSome then
    let parsed ← settle grammar parsed
    let parsed := { parsed with pending := some (name, value) }
    if value.isSome then settle grammar parsed else return parsed
  else if value.isSome then .error .wrong
  else if name == "help" then
    let _ ← settle grammar parsed
    .error .help
  else if grammar.flags.contains name then
    let parsed ← settle grammar parsed
    if parsed.flags.contains name then .error .wrong
    else return { parsed with flags := parsed.flags ++ [name] }
  else .error .wrong

/-- Reads short options, of which there is only the one for help. -/
def readShort (grammar : Grammar) (parsed : Parsed) (letters : List Char) :
    Except Usage Parsed := do
  if letters.head? == some 'h' then
    let _ ← settle grammar parsed
    .error .help
  else .error .wrong

def readOperand (grammar : Grammar) (parsed : Parsed) (operand : String) :
    Except Usage Parsed := do
  let parsed ← settle grammar parsed
  let isExpected := grammar.most.all fun most => parsed.operands.length < most
  if isExpected && grammar.isOperand operand then
    return { parsed with operands := parsed.operands ++ [operand] }
  else .error .wrong

def isWaiting (parsed : Parsed) : Bool :=
  parsed.pending.any fun (_, value) => value.isNone

/-- Reads arguments to their end, or up to a command; gives the command and what follows it. -/
def read (grammar : Grammar) (trailing : Bool) (parsed : Parsed) :
    List String → Except Usage (Parsed × Option (String × List String))
  | [] => .ok (parsed, none)
  | argument :: rest =>
    if trailing then do
      let parsed ← readOperand grammar parsed argument
      read grammar true parsed rest
    else if !isWaiting parsed && grammar.commands.contains argument then
      .ok (parsed, some (argument, rest))
    else
      match argument.toList with
      | ['-', '-'] => read grammar true parsed rest
      | '-' :: '-' :: long => do
        let (name, value) := splitLong long
        let parsed ← readLong grammar parsed name value
        read grammar false parsed rest
      | '-' :: letter :: letters => do
        let parsed ← readShort grammar parsed (letter :: letters)
        read grammar false parsed rest
      | _ =>
        match parsed.pending with
        | some (name, none) =>
          read grammar false { parsed with pending := some (name, some argument) } rest
        | _ => do
          let parsed ← readOperand grammar parsed argument
          read grammar false parsed rest

def dataDirectoryOption : String := "data-dir"

/-- The option for the directory of the data, which is not empty. -/
def dataDirectory : String × (String → Bool) :=
  (dataDirectoryOption, fun value => !value.isEmpty)

def defaultSize : Nat := 25

def integer? (text : String) : Option Int :=
  (Word.signed64 text.toList).toOption

def number? (text : String) : Option Nat :=
  (Word.unsigned64 text.toList).toOption

/-- Reads all arguments after a command. -/
def readAll (grammar : Grammar) (arguments : List String) : Except Usage Parsed := do
  let grammar := { grammar with options := dataDirectory :: grammar.options }
  let (parsed, _) ← read grammar false {} arguments
  settle grammar parsed

/-- The invocation of a command with what was read after it. -/
def invoke (parsed : Parsed) (command : Command) : Invocation :=
  ⟨command, parsed.options.lookup dataDirectoryOption⟩

/-- The mode that the options of a reconciliation choose, of which there may be only one. -/
def modeOf (parsed : Parsed) : Except Usage ReconciliationMode :=
  if parsed.flags.contains "full" then
    if parsed.flags.contains "incremental" then .error .wrong else .ok .full
  else .ok .incremental

/-- The names of the commands. -/
def commandNames : List String :=
  ["create-indexes", "drop-indexes", "reconcile", "index-learning-materials", "index-courses",
    "index-mesh", "search-curriculum", "help"]

/-- Whether help can be given on what follows the command for help: nothing, or one command. -/
def isTopic : List String → Bool
  | [] => true
  | [name] => commandNames.contains name
  | _ => false

/-- Reads what follows a command. -/
def readCommand (name : String) (rest : List String) : Except Usage Invocation := do
  match name with
  | "create-indexes" => return invoke (← readAll {} rest) .createIndexes
  | "drop-indexes" => return invoke (← readAll {} rest) .dropIndexes
  | "reconcile" =>
    let parsed ← readAll { flags := ["full", "incremental"] } rest
    return invoke parsed (.reconcile (← modeOf parsed))
  | "index-learning-materials" =>
    let isId (operand : String) : Bool := (integer? operand).isSome
    let parsed ← readAll { flags := ["force"], most := none, isOperand := isId } rest
    let ids := parsed.operands.filterMap integer?
    return invoke parsed (.indexLearningMaterials ids (parsed.flags.contains "force"))
  | "index-courses" =>
    let isId (operand : String) : Bool := (integer? operand).isSome
    let parsed ← readAll { most := none, isOperand := isId } rest
    return invoke parsed (.indexCourses (parsed.operands.filterMap integer?))
  | "index-mesh" =>
    let parsed ← readAll { most := none } rest
    return invoke parsed (.indexMesh parsed.operands)
  | "search-curriculum" =>
    let isSize (value : String) : Bool := (number? value).isSome
    let parsed ← readAll { options := [("size", isSize)], most := some 1 } rest
    match parsed.operands with
    | [text] =>
      let size := ((parsed.options.lookup "size").bind number?).getD defaultSize
      return invoke parsed (.searchCurriculum text size)
    | _ => .error .wrong
  | "help" => .error (if isTopic rest then .help else .wrong)
  | _ => .error .wrong

/-- Reads the arguments of the program.  The directory that is named after the command counts before
the one in front of it. -/
def parse (arguments : List String) : Except Usage Invocation := do
  let grammar : Grammar := { options := [dataDirectory], commands := commandNames }
  match ← read grammar false {} arguments with
  | (parsed, some (name, rest)) =>
    let invocation ← readCommand name rest
    let parsed ← settle grammar parsed
    let directory := invocation.dataDirectory <|> parsed.options.lookup dataDirectoryOption
    return { invocation with dataDirectory := directory }
  | (_, none) => .error .wrong

end Arguments
end LearningIndex
