import LearningIndex.Engine.Error
import LearningIndex.Engine.Key

/-!
# Answers of the engine

How the answers to searches, bulk requests and deletions are read.  A record may also come as the
list of its fields in order; fields that are missing have their defaults, and unknown ones are
ignored.  When a record has several faults, the one in the field whose name comes first counts.
-/

namespace LearningIndex

/-- The answer to a bulk request. -/
structure BulkReply where
  took : Nat
  errors : Bool
  items : List Json
deriving Repr

/-- Reads a value, or gives the default where there is none. -/
def readOr {α : Type} (fallback : α) (read : Json → Except Json.Fault α) :
    Option Json → Except Json.Fault α
  | some value => read value
  | none => .ok fallback

/-- The items of a record that comes as a list of at most `size` values. -/
def recordItems (size : Nat) (items : List Json) : Except Json.Fault Unit :=
  if items.length ≤ size then .ok () else .error (.tooLong items.length)

namespace BulkReply

def none : BulkReply := ⟨0, false, []⟩

def ofJson : Json → Except Json.Fault BulkReply
  | .object fields => do
    let errors ← readOr false Json.expectBool (Fields.get? "errors" fields)
    let items ← readOr [] Json.expectArray (Fields.get? "items" fields)
    let took ← readOr 0 Json.expectUnsigned (Fields.get? "took" fields)
    return ⟨took, errors, items⟩
  | .array values => do
    let took ← readOr 0 Json.expectUnsigned values[0]?
    let errors ← readOr false Json.expectBool values[1]?
    let items ← readOr [] Json.expectArray values[2]?
    recordItems 3 values
    return ⟨took, errors, items⟩
  | other => .error (.wrongType other "struct BulkResponse")

/-- Whether the result of an item reports an error. -/
def isFailure (item : Json) : Bool :=
  match item.object? with
  | some actions => actions.any fun (_, result) => (result.get? "error").isSome
  | .none => false

def failedItems (reply : BulkReply) : Nat :=
  (reply.items.filter isFailure).length

end BulkReply

/-- The answer to a deletion. -/
structure DeleteReply where
  deleted : Nat
  failures : List Json
deriving Repr

namespace DeleteReply

def none : DeleteReply := ⟨0, []⟩

def ofJson : Json → Except Json.Fault DeleteReply
  | .object fields => do
    let deleted ← readOr 0 Json.expectUnsigned (Fields.get? "deleted" fields)
    let failures ← readOr [] Json.expectArray (Fields.get? "failures" fields)
    return ⟨deleted, failures⟩
  | .array values => do
    let deleted ← readOr 0 Json.expectUnsigned values[0]?
    let failures ← readOr [] Json.expectArray values[1]?
    recordItems 2 values
    return ⟨deleted, failures⟩
  | other => .error (.wrongType other "struct DeleteByQueryResponse")

/-- Whether everything found was deleted. -/
def isClean (reply : DeleteReply) : Bool :=
  reply.failures.isEmpty

end DeleteReply

/-- The hits of the answer to a search. -/
def hitsOf (answer : Json) : List Json :=
  (((answer.get? "hits").bind (·.get? "hits")).bind Json.array?).getD []

/-- One page of hits. -/
structure ScrollPage where
  /-- The id under which the next page is asked for. -/
  scrollId : Option String
  hits : List Json
deriving Repr

namespace ScrollPage

/-- The page that an answer holds; anything unexpected counts as absent. -/
def ofAnswer (answer : Json) : ScrollPage :=
  ⟨(answer.get? "_scroll_id").bind Json.string?, hitsOf answer⟩

def isEmpty (page : ScrollPage) : Bool :=
  page.hits.isEmpty

/-- The sources of the hits that have one. -/
def sources (page : ScrollPage) : List Json :=
  page.hits.filterMap (·.get? "_source")

end ScrollPage

def sourceField? {κ : Type} [Key κ] (source : Json) (field : String) : Option κ :=
  (source.get? field).bind fun value => (Key.ofJson value).toOption

/-- The buckets of an aggregation. -/
def bucketsOf? (answer : Json) (aggregation : String) : Option (List Json) := do
  let aggregations ← answer.get? "aggregations"
  let found ← aggregations.get? aggregation
  let buckets ← found.get? "buckets"
  buckets.array?

def bucketKey {κ : Type} [Key κ] (bucket : Json) : Except EngineError κ :=
  match bucket.get? "key" with
  | some value => (Key.ofJson value).mapError fun fault => .parse fault.message
  | none => .error (.parse "Bucket without key")

/-- The keys of the buckets of an aggregation. -/
def aggregationKeys {κ : Type} [Key κ] (answer : Json) (aggregation : String) :
    Except EngineError (List κ) :=
  match bucketsOf? answer aggregation with
  | some buckets => buckets.mapM bucketKey
  | none => .error (.parse ("Missing buckets for aggregation '" ++ aggregation ++ "'"))

end LearningIndex
