import LearningIndex.Http.Address

/-!
# Endpoints

Where a server without encryption is reached: the host and the port of an address, and the path
below which the targets of requests lie.
-/

namespace LearningIndex
namespace Http

/-- Where a server is reached. -/
structure Endpoint where
  host : String
  port : Nat
  /-- The path in front of the targets of requests, without a slash at its end. -/
  basePath : String
deriving DecidableEq, Repr

namespace Endpoint

/-- The port of a server where the address has none. -/
def defaultPort : Nat := 80

/-- The path of an address after the host, without slashes at its end. -/
def basePathOf (text : List Char) : List Char :=
  let path := text.takeWhile fun character => character ≠ '?' && character ≠ '#'
  (path.reverse.dropWhile (· = '/')).reverse

def unbracket (host : List Char) : List Char :=
  match host with
  | '[' :: rest => rest.dropLast
  | host => host

/-- The endpoint of an address, if its scheme is that of servers without encryption. -/
def ofAddress? (address : String) : Option Endpoint :=
  match readScheme (addressText address.toList) with
  | some (scheme, rest) =>
    if isAddress address && scheme = "http".toList then
      let rest := rest.dropWhile fun character => character = '/' || character = '\\'
      let authority := rest.takeWhile fun character => !endsAuthority true character
      let path := rest.dropWhile fun character => !endsAuthority true character
      let (host, port) := splitPort false (afterLogin authority)
      let number :=
        match port with
        | some (digit :: digits) => Text.readDigits 0 (digit :: digits)
        | _ => defaultPort
      some ⟨String.ofList (unbracket host), number, String.ofList (basePathOf path)⟩
    else none
  | none => none

/-- The name of the server as requests give it. -/
def authority (endpoint : Endpoint) : String :=
  if endpoint.port = defaultPort then endpoint.host
  else endpoint.host ++ ":" ++ Text.decimalString endpoint.port

end Endpoint
end Http
end LearningIndex
