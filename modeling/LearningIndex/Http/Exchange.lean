import LearningIndex.Bytes.Gzip
import LearningIndex.Json.Printer
import LearningIndex.Text.Decimal

/-!
# Exchanges

The requests that are sent to a server and the responses that come back.
-/

namespace LearningIndex
namespace Http

inductive Method where
  | get
  | head
  | put
  | post
  | delete
deriving DecidableEq, Repr

def Method.name : Method → String
  | get => "GET"
  | head => "HEAD"
  | put => "PUT"
  | post => "POST"
  | delete => "DELETE"

inductive Body where
  | empty
  | json (value : Json)
  /-- Lines of JSON, which are sent compressed. -/
  | lines (text : List Char)

namespace Body

/-- The type of content that is announced, also without a body. -/
def contentType : Body → String
  | empty => "application/json"
  | json _ => "application/json"
  | lines _ => "application/x-ndjson"

def contentEncoding : Body → Option String
  | lines _ => some "gzip"
  | _ => none

def bytes : Body → ByteString
  | empty => []
  | json value => Utf8.encode value.render
  | lines text => Gzip.compress (Utf8.encode text)

end Body

structure Request where
  method : Method
  /-- The path and the query. -/
  target : String
  body : Body := .empty
  authorization : Option String := none

structure Response where
  status : Nat
  body : ByteString

namespace Response

/-- Whether the status reports success. -/
def isSuccess (response : Response) : Bool :=
  200 ≤ response.status && response.status < 300

/-- The phrase that belongs to a status. -/
def reasonPhrase : Nat → Option String
  | 100 => "Continue"
  | 101 => "Switching Protocols"
  | 102 => "Processing"
  | 103 => "Early Hints"
  | 200 => "OK"
  | 201 => "Created"
  | 202 => "Accepted"
  | 203 => "Non Authoritative Information"
  | 204 => "No Content"
  | 205 => "Reset Content"
  | 206 => "Partial Content"
  | 207 => "Multi-Status"
  | 208 => "Already Reported"
  | 226 => "IM Used"
  | 300 => "Multiple Choices"
  | 301 => "Moved Permanently"
  | 302 => "Found"
  | 303 => "See Other"
  | 304 => "Not Modified"
  | 305 => "Use Proxy"
  | 307 => "Temporary Redirect"
  | 308 => "Permanent Redirect"
  | 400 => "Bad Request"
  | 401 => "Unauthorized"
  | 402 => "Payment Required"
  | 403 => "Forbidden"
  | 404 => "Not Found"
  | 405 => "Method Not Allowed"
  | 406 => "Not Acceptable"
  | 407 => "Proxy Authentication Required"
  | 408 => "Request Timeout"
  | 409 => "Conflict"
  | 410 => "Gone"
  | 411 => "Length Required"
  | 412 => "Precondition Failed"
  | 413 => "Payload Too Large"
  | 414 => "URI Too Long"
  | 415 => "Unsupported Media Type"
  | 416 => "Range Not Satisfiable"
  | 417 => "Expectation Failed"
  | 418 => "I'm a teapot"
  | 421 => "Misdirected Request"
  | 422 => "Unprocessable Entity"
  | 423 => "Locked"
  | 424 => "Failed Dependency"
  | 425 => "Too Early"
  | 426 => "Upgrade Required"
  | 428 => "Precondition Required"
  | 429 => "Too Many Requests"
  | 431 => "Request Header Fields Too Large"
  | 451 => "Unavailable For Legal Reasons"
  | 500 => "Internal Server Error"
  | 501 => "Not Implemented"
  | 502 => "Bad Gateway"
  | 503 => "Service Unavailable"
  | 504 => "Gateway Timeout"
  | 505 => "HTTP Version Not Supported"
  | 506 => "Variant Also Negotiates"
  | 507 => "Insufficient Storage"
  | 508 => "Loop Detected"
  | 510 => "Not Extended"
  | 511 => "Network Authentication Required"
  | _ => none

/-- The status with its phrase. -/
def statusText (response : Response) : String :=
  Text.decimalString response.status ++ " "
    ++ (reasonPhrase response.status).getD "<unknown status code>"

end Response
end Http
end LearningIndex
