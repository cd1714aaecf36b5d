import LearningIndex.Json.Value

/-!
# Index schemas

The settings and the field definitions with which an index is created, and the ingest pipelines that
the engine runs on documents before it stores them.  A schema carries a version, so that a change
can be noticed later.
-/

namespace LearningIndex

/-- The settings and fields of an index. -/
structure Mapping where
  version : String
  shards : Nat := 1
  replicas : Nat := 1
  settings : List (String × Json) := []
  properties : List (String × Json) := []

namespace Mapping

/-- The body with which the index is created. -/
def body (mapping : Mapping) : Json :=
  let numbers : List (String × Json) :=
    [("number_of_shards", .natural mapping.shards),
      ("number_of_replicas", .natural mapping.replicas)]
  let mappings := Json.ofFields [
    ("_meta", .singleton "version" (.string mapping.version)),
    ("properties", .ofFields mapping.properties)]
  .ofFields [
    ("settings", .ofFields (numbers ++ mapping.settings)),
    ("mappings", mappings)]

/-- The languages for which a text is also analysed on its own. -/
def languages : List String := ["english", "french", "spanish"]

def fieldOfType (name : String) : Json :=
  .singleton "type" (.string name)

/-- A text with the given analyzer. -/
def analyzedText (analyzer : String) : Json :=
  .ofFields [("type", .string "text"), ("analyzer", .string analyzer)]

/-- A text in the standard analysis, and once more in that of each language. -/
def multilingualText : Json :=
  .ofFields [
    ("type", .string "text"),
    ("analyzer", .string "standard"),
    ("fields", .ofFields (languages.map fun language => (language, analyzedText language)))]

/-- A text that is one word. -/
def keywordText : Json := analyzedText "keyword"

def keyword : Json := fieldOfType "keyword"

def integer : Json := fieldOfType "integer"

def date : Json := fieldOfType "date"

end Mapping

/-- An ingest pipeline. -/
structure Pipeline where
  id : String
  body : Json

/-- All that is needed to create an index. -/
structure IndexDefinition where
  name : String
  mapping : Mapping
  pipeline : Option Pipeline := none

def Pipeline.toJson (pipeline : Pipeline) : Json :=
  .ofFields [("id", .string pipeline.id), ("body", pipeline.body)]

def IndexDefinition.toJson (definition : IndexDefinition) : Json :=
  let pipeline :=
    match definition.pipeline with
    | some pipeline => pipeline.toJson
    | none => .null
  .ofFields [
    ("name", .string definition.name),
    ("version", .string definition.mapping.version),
    ("body", definition.mapping.body),
    ("pipeline", pipeline)]

end LearningIndex
