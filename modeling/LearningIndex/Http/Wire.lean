import LearningIndex.Http.Endpoint
import LearningIndex.Http.Exchange
import LearningIndex.Http.Percent

/-!
# Requests and responses as bytes

A request is written with the headers that its body needs, and asks the server to close the
connection after the response.  A response is read from all that the server sends until then.  Its
body is cut to the length that is announced or is put together from chunks; a body that is shorter
than announced makes no response.
-/

namespace LearningIndex
namespace Http
namespace Wire

def lineEnd : String := "\x0d\x0a"

def headers (endpoint : Endpoint) (request : Request) : List (String × String) :=
  let encoding := request.body.contentEncoding.map fun encoding => ("content-encoding", encoding)
  let credentials := request.authorization.map fun credentials => ("authorization", credentials)
  [("host", endpoint.authority), ("accept", "*/*"),
    ("content-type", request.body.contentType),
    ("content-length", Text.decimalString request.body.bytes.length),
    ("connection", "close")] ++ encoding.toList ++ credentials.toList

def requestBytes (endpoint : Endpoint) (request : Request) : ByteString :=
  let start := request.method.name ++ " " ++ endpoint.basePath ++ request.target ++ " HTTP/1.1"
  let fields := (headers endpoint request).map fun (name, value) => name ++ ": " ++ value
  let lines := (start :: fields).map (· ++ lineEnd)
  Utf8.ofString (String.join lines ++ lineEnd) ++ request.body.bytes

/-- The first line of some bytes without its end, and what follows it. -/
def readLine : ByteString → Option (ByteString × ByteString)
  | [] => none
  | 0x0d :: 0x0a :: rest => some ([], rest)
  | byte :: rest => (readLine rest).map fun (line, rest) => (byte :: line, rest)

/-- The text of a line, a character for each byte. -/
def lineText (line : ByteString) : List Char :=
  line.map asciiChar

/-- The name of a header in lower case, and its value. -/
def readHeader (line : List Char) : List Char × List Char :=
  let value := (line.dropWhile (· ≠ ':')).drop 1
  let isSpace (character : Char) : Bool := character = ' ' || character = '\t'
  (Text.lowerAscii (line.takeWhile (· ≠ ':')),
    ((value.dropWhile isSpace).reverse.dropWhile isSpace).reverse)

/-- The headers up to the empty line, in at most `steps` lines, and what follows that line. -/
def readHeaders : Nat → ByteString → Option (List (List Char × List Char) × ByteString)
  | 0, _ => none
  | steps + 1, bytes =>
    match readLine bytes with
    | none => none
    | some ([], rest) => some ([], rest)
    | some (line, rest) =>
      (readHeaders steps rest).map fun (headers, rest) =>
        (readHeader (lineText line) :: headers, rest)

/-- The number that hexadecimal digits at the front of a text stand for. -/
def readSize (text : List Char) : Option Nat :=
  let digits := text.takeWhile fun character => (Hexadecimal.value? character).isSome
  if digits.isEmpty then none
  else some (digits.foldl (fun value digit => 16 * value + (Hexadecimal.value? digit).getD 0) 0)

/-- The chunks up to the empty one, which are at most `steps`. -/
def readChunks : Nat → ByteString → Option ByteString
  | 0, _ => none
  | steps + 1, bytes =>
    match readLine bytes with
    | none => none
    | some (line, rest) =>
      match readSize (lineText line) with
      | none => none
      | some 0 => some []
      | some size =>
        if rest.length < size + 2 then none
        else (readChunks steps (rest.drop (size + 2))).map (rest.take size ++ ·)

def readStatus (line : List Char) : Option Nat :=
  if line.take 5 = "HTTP/".toList then
    let code := ((line.dropWhile (· ≠ ' ')).drop 1).takeWhile (· ≠ ' ')
    if code.length = 3 then Text.natural? code else none
  else none

def readBody (headers : List (List Char × List Char)) (bytes : ByteString) : Option ByteString :=
  if (headers.lookup "transfer-encoding".toList).any fun value =>
      Text.lowerAscii value = "chunked".toList then
    readChunks (bytes.length + 1) bytes
  else
    match headers.lookup "content-length".toList with
    | none => some bytes
    | some value =>
      match Text.natural? value with
      | none => none
      | some length => if bytes.length < length then none else some (bytes.take length)

def readResponse (method : Method) (bytes : ByteString) : Option Response := do
  let (line, rest) ← readLine bytes
  let status ← readStatus (lineText line)
  let (headers, rest) ← readHeaders (rest.length + 1) rest
  if method = .head then return ⟨status, []⟩
  let body ← readBody headers rest
  return ⟨status, body⟩

end Wire
end Http
end LearningIndex
