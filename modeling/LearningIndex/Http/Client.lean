import LearningIndex.Engine.Call
import LearningIndex.Http.Exchange
import LearningIndex.Http.Percent
import LearningIndex.Json.Reader

/-!
# The engine over HTTP

Each operation of the engine is one request, and its answer is read from one response.  A status
that reports no success is an error of the operation's kind, except where the absence of what is
named is an answer: a scroll context that is gone, an index that is not there.  A body that is not
of the expected shape is a parse error.
-/

namespace LearningIndex
namespace Http

/-- The request for an operation; an empty bulk request is not sent. -/
def requestFor (authorization : Option String) : EngineCall → Option Request
  | .search request =>
    let query :=
      match request.scroll with
      | some keepAlive => "?scroll=" ++ encodeForm keepAlive
      | none => ""
    some ⟨.post, "/" ++ encodePart request.index ++ "/_search" ++ query,
      .json request.query.body, authorization⟩
  | .scroll scrollId keepAlive =>
    let body := Json.ofFields [("scroll", .string keepAlive), ("scroll_id", .string scrollId)]
    some ⟨.post, "/_search/scroll", .json body, authorization⟩
  | .clearScroll scrollId =>
    let body := Json.singleton "scroll_id" (.strings [scrollId])
    some ⟨.delete, "/_search/scroll", .json body, authorization⟩
  | .bulk operations =>
    if operations.isEmpty then none
    else some ⟨.post, "/_bulk", .lines (BulkOperation.body operations), authorization⟩
  | .deleteByQuery index query =>
    some ⟨.post, "/" ++ encodePart index ++ "/_delete_by_query", .json query.body, authorization⟩
  | .indexExists index => some ⟨.head, "/" ++ encodePart index, .empty, authorization⟩
  | .createIndex index body => some ⟨.put, "/" ++ encodePart index, .json body, authorization⟩
  | .deleteIndex index => some ⟨.delete, "/" ++ encodePart index, .empty, authorization⟩
  | .putPipeline id body =>
    some ⟨.put, "/_ingest/pipeline/" ++ encodePart id, .json body, authorization⟩
  | .health => some ⟨.get, "/_cluster/health", .empty, authorization⟩

/-- The kind of error in which an operation fails. -/
def errorOf : EngineCall → String → EngineError
  | .search _ => .query
  | .scroll _ _ => .scroll
  | .clearScroll _ => .scroll
  | .bulk _ => .bulkIndex
  | .deleteByQuery _ _ => .delete
  | .indexExists _ => .connection
  | .createIndex _ _ => .indexCreation
  | .deleteIndex _ => .indexCreation
  | .putPipeline _ _ => .pipeline
  | .health => .connection

def nameOf : EngineCall → String
  | .search _ => "Search"
  | .scroll _ _ => "Scroll"
  | .clearScroll _ => "Clear scroll"
  | .bulk _ => "Bulk"
  | .deleteByQuery _ _ => "Delete by query"
  | .indexExists _ => "Index exists"
  | .createIndex _ _ => "Create index"
  | .deleteIndex _ => "Delete index"
  | .putPipeline _ _ => "Put pipeline"
  | .health => "Health check"

/-- The error of an operation whose response reports no success. -/
def statusError (call : EngineCall) (response : Response) : EngineError :=
  errorOf call (nameOf call ++ " failed with status " ++ response.statusText ++ ": "
    ++ String.ofList (Utf8.lossy response.body))

def bodyValue (response : Response) : Except EngineError Json :=
  match (Utf8.decode? response.body).bind Json.value? with
  | some value => .ok value
  | none => .error (.parse "the body is not valid JSON")

/-- The value in the body of a response that reports success. -/
def successValue (call : EngineCall) (response : Response) : Except EngineError Json :=
  if response.isSuccess then bodyValue response else .error (statusError call response)

/-- Accepts a response that reports success, or that what is named is not there. -/
def successOrAbsent (call : EngineCall) (response : Response) : Except EngineError Unit :=
  if response.isSuccess || response.status == 404 then .ok ()
  else .error (statusError call response)

/-- Whether the value of a health report is that of a usable cluster. -/
def isUsable (report : Json) : Bool :=
  ((report.get? "status").bind Json.string?).getD "red" != "red"

/-- The answer of an operation in a response. -/
def readResponse (call : EngineCall) (response : Response) : Except EngineError call.Answer :=
  match call with
  | .search request => successValue (.search request) response
  | .scroll scrollId keepAlive => successValue (.scroll scrollId keepAlive) response
  | .clearScroll scrollId => successOrAbsent (.clearScroll scrollId) response
  | .bulk operations => do
    let value ← successValue (.bulk operations) response
    (BulkReply.ofJson value).mapError fun fault => .parse fault.message
  | .deleteByQuery index query => do
    let value ← successValue (.deleteByQuery index query) response
    (DeleteReply.ofJson value).mapError fun fault => .parse fault.message
  | .indexExists _ => .ok response.isSuccess
  | .createIndex index body => (successValue (.createIndex index body) response).map fun _ => ()
  | .deleteIndex index => successOrAbsent (.deleteIndex index) response
  | .putPipeline id body => (successValue (.putPipeline id body) response).map fun _ => ()
  | .health => (successValue .health response).map isUsable

/-- The answer of an operation for which nothing is sent. -/
def unsentAnswer (call : EngineCall) : Except EngineError call.Answer :=
  match call with
  | .bulk _ => .ok BulkReply.none
  | other => .error (errorOf other "nothing was sent")

/-- The error of an operation that got no response. -/
def noResponse (call : EngineCall) : EngineError :=
  errorOf call "the server gave no response"

end Http
end LearningIndex
