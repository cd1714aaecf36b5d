import LearningIndex.Calendar.Timestamp
import LearningIndex.Engine.Key

/-!
# Queries

What the program asks an index, and the bodies that the engine takes for it.  The query for indexed
candidates asks only for the buckets of an aggregation on the field; a bucket's key is the id of an
entity that the index holds.
-/

namespace LearningIndex

/-- A question to an index. -/
inductive Query where
  /-- Which of the candidates occur as the value of a field, in documents that were ingested at or
  after an instant if one is given with the name of its field. -/
  | indexed (field : String) (candidates : List Json) (since : Option (String × Calendar.Instant))
  | everything (field : String)
  | term (field : String) (value : Json)
  /-- The best matches of a text in weighted fields, with some fields of each. -/
  | match_ (text : String) (weighted shown : List String) (size : Nat)
  | custom (body : Json)

namespace Query

/-- The largest number of buckets or hits of one answer; the engine drops what is beyond. -/
def answerLimit : Nat := 10000

/-- The condition that a field lies at or after an instant. -/
def sinceFilter (field : String) (instant : Calendar.Instant) : Json :=
  .singleton "range" (.singleton field (.singleton "gte" (.string instant.bound)))

/-- The body that the engine takes for a query. -/
def body : Query → Json
  | indexed field candidates since =>
    let range :=
      match since with
      | some (ingestField, instant) => [sinceFilter ingestField instant]
      | none => []
    let filters := range ++ [Json.singleton "terms" (.singleton field (.array candidates))]
    let buckets := Json.ofFields [("field", .string field), ("size", .natural answerLimit)]
    .ofFields [
      ("query", .singleton "bool" (.singleton "filter" (.array filters))),
      ("aggs", .singleton field (.singleton "terms" buckets)),
      ("size", .natural 0)]
  | everything field =>
    .ofFields [
      ("query", .singleton "match_all" (.object [])),
      ("_source", .strings [field]),
      ("size", .natural answerLimit)]
  | term field value =>
    .singleton "query" (.singleton "term" (.singleton field value))
  | match_ text weighted shown size =>
    let terms := Json.ofFields [
      ("query", .string text), ("type", .string "most_fields"), ("fields", .strings weighted)]
    .ofFields [
      ("query", .singleton "multi_match" terms),
      ("_source", .strings shown),
      ("size", .natural size)]
  | custom body => body

end Query

/-- A search in one index, which opens a scroll context if a time to keep it is given. -/
structure SearchRequest where
  index : String
  query : Query
  scroll : Option String

end LearningIndex
