import LearningIndex.Engine.Query
import LearningIndex.Proofs.Calendar.Bound

/-!
# What bodies ask for

An engine sees no query but only its body.  The body of a query for candidates asks for the buckets
of an aggregation over the documents that pass its filters, the body of a query for everything asks
for one field of every document, so many in an answer, and the body of a query for a value selects
the documents with that value in a field.  Each of them is read back from the body that is sent.
-/

namespace LearningIndex

open Calendar (Instant)

/-- The condition of a query for candidates on the time of ingestion, if it has one. -/
def Fields.IsRecent (fields : Fields) : Option (String × Instant) → Prop
  | some (field, stamp) => fields.IngestedSince field stamp
  | none => True

/-! ## Filters -/

/-- Whether a document with some fields passes a filter of a query. -/
inductive Fields.Passes (fields : Fields) : Json → Prop
  /-- A field has one of the listed values. -/
  | terms {name : String} {value : Json} {values : List Json}
      (shown : fields.get? name = some value) (listed : value ∈ values) :
      Passes fields (.singleton "terms" (.singleton name (.array values)))
  /-- A field holds a time that is not before the bound. -/
  | range {name bound text : String} {start time : Instant}
      (shown : fields.get? name = some (.string text)) (timed : Calendar.instant? text = some time)
      (bounded : Calendar.instant? bound = some start) (late : time.isBefore start = false) :
      Passes fields (.singleton "range" (.singleton name (.singleton "gte" (.string bound))))

theorem Fields.passes_terms_iff {fields : Fields} {name : String} {values : List Json} :
    fields.Passes (.singleton "terms" (.singleton name (.array values))) ↔
      ∃ value ∈ values, fields.get? name = some value := by
  constructor
  · intro passes
    generalize same : Json.singleton "terms" (.singleton name (.array values)) = filter at passes
    cases passes with
    | terms shown listed =>
        simp only [Json.singleton, Json.object.injEq, List.cons.injEq, Prod.mk.injEq, and_true,
          true_and, Json.array.injEq] at same
        obtain ⟨rfl, rfl⟩ := same
        exact ⟨_, listed, shown⟩
    | range => simp [Json.singleton] at same
  · rintro ⟨value, listed, shown⟩
    exact .terms shown listed

theorem Fields.passes_sinceFilter_iff {fields : Fields} {name : String} {stamp : Instant} :
    fields.Passes (Query.sinceFilter name stamp) ↔ fields.IngestedSince name stamp := by
  constructor
  · intro passes
    generalize same : Query.sinceFilter name stamp = filter at passes
    cases passes with
    | terms => simp [Query.sinceFilter, Json.singleton] at same
    | range shown timed bounded late =>
        simp only [Query.sinceFilter, Json.singleton, Json.object.injEq, List.cons.injEq,
          Prod.mk.injEq, and_true, true_and, Json.string.injEq] at same
        obtain ⟨rfl, rfl⟩ := same
        rw [Calendar.instant?_bound] at bounded
        obtain rfl := Option.some.inj bounded
        exact ⟨_, _, shown, timed, late⟩
  · rintro ⟨text, time, shown, timed, late⟩
    exact .range shown timed (Calendar.instant?_bound stamp) late

/-! ## Aggregations -/

/-- What a search body asks to be counted. -/
structure Aggregation where
  /-- The filters that a document must pass. -/
  filters : List Json
  field : String
  /-- The largest number of buckets in the answer. -/
  limit : Nat

namespace Aggregation

/-- The aggregation of the given name in a search body. -/
def ofBody? (body : Json) (name : String) : Option Aggregation := do
  let condition ← (← body.get? "query").get? "bool"
  let filters ← (← condition.get? "filter").array?
  let terms ← (← (← body.get? "aggs").get? name).get? "terms"
  let field ← (← terms.get? "field").string?
  let limit ← (← terms.get? "size").unsigned64?
  return ⟨filters, field, limit⟩

/-- The value has a bucket: it is in the field of a document that passes the filters. -/
def Counts (aggregation : Aggregation) (documents : List Document) (value : Json) : Prop :=
  ∃ document ∈ documents, (∀ filter ∈ aggregation.filters, document.source.Passes filter) ∧
    document.get? aggregation.field = some value

/-- The aggregation that a query for candidates asks for. -/
def ofCandidates (field : String) (candidates : List Json)
    (since : Option (String × Instant)) : Aggregation where
  filters := (since.toList.map fun bound => Query.sinceFilter bound.1 bound.2) ++
    [.singleton "terms" (.singleton field (.array candidates))]
  field := field
  limit := Query.answerLimit

theorem ofBody?_indexed (field : String) (candidates : List Json)
    (since : Option (String × Instant)) :
    ofBody? (Query.indexed field candidates since).body field =
      some (ofCandidates field candidates since) := by
  cases since <;>
    simp [ofBody?, ofCandidates, Query.body, Json.ofFields, Fields.ofList, Json.singleton,
      Json.get?, Fields.get?, Fields.get?_insert, Json.array?, Json.string?, Json.natural,
      Json.unsigned64?, Json.isUnsigned64, Query.answerLimit]

/-- The values counted for some candidates are the candidates that occur in recent documents. -/
theorem counts_ofCandidates_iff {field : String} {candidates : List Json}
    {since : Option (String × Instant)} {documents : List Document} {value : Json} :
    (ofCandidates field candidates since).Counts documents value ↔
      value ∈ candidates ∧ ∃ document ∈ documents, document.get? field = some value ∧
        document.source.IsRecent since := by
  have passes_iff (document : Document) (shown : document.get? field = some value) :
      (∀ filter ∈ (ofCandidates field candidates since).filters,
        document.source.Passes filter) ↔ value ∈ candidates ∧ document.source.IsRecent since := by
    have listed : document.source.Passes
        (.singleton "terms" (.singleton field (.array candidates))) ↔ value ∈ candidates := by
      change Fields.get? field document.source = some value at shown
      simp [Fields.passes_terms_iff, shown]
    cases since <;>
      simp [ofCandidates, listed, Fields.passes_sinceFilter_iff, Fields.IsRecent, and_comm]
  constructor
  · rintro ⟨document, member, passes, shown⟩
    obtain ⟨candidate, recent⟩ := (passes_iff document shown).mp passes
    exact ⟨candidate, document, member, shown, recent⟩
  · rintro ⟨candidate, document, member, shown, recent⟩
    exact ⟨document, member, (passes_iff document shown).mpr ⟨candidate, recent⟩, shown⟩

end Aggregation

/-! ## Listings -/

/-- What a search body asks to be listed: one field of every document. -/
structure Listing where
  field : String
  /-- The largest number of hits in an answer. -/
  limit : Nat

namespace Listing

/-- The listing in a search body, which must match all documents and show no other field. -/
def ofBody? (body : Json) : Option Listing := do
  let _ ← (← body.get? "query").get? "match_all"
  let limit ← (← body.get? "size").unsigned64?
  match ← body.get? "_source" with
  | .array [.string field] => return ⟨field, limit⟩
  | _ => none

theorem ofBody?_everything (field : String) :
    ofBody? (Query.everything field).body = some ⟨field, Query.answerLimit⟩ := by
  simp [ofBody?, Query.body, Json.ofFields, Fields.ofList, Json.singleton, Json.get?, Fields.get?,
    Fields.get?_insert, Json.strings, Json.natural, Json.unsigned64?, Json.isUnsigned64,
    Query.answerLimit]

end Listing

/-! ## Selections -/

/-- What the body of a deletion selects: the documents with a value in a field. -/
structure Selection where
  field : String
  value : Json

namespace Selection

/-- The selection in the body of a deletion, which must be the only condition. -/
def ofBody? (body : Json) : Option Selection := do
  match ← body.get? "query" with
  | .object [("term", .object [(field, value)])] => return ⟨field, value⟩
  | _ => none

theorem ofBody?_term (field : String) (value : Json) :
    ofBody? (Query.term field value).body = some ⟨field, value⟩ := rfl

/-- The document has the value in the field. -/
def Selects (selection : Selection) (fields : Fields) : Prop :=
  fields.get? selection.field = some selection.value

end Selection

end LearningIndex
