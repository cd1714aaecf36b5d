import LearningIndex.Command.EnvironmentBlock
import LearningIndex.Command.Run
import LearningIndex.Http.Wire
import Std.Async.DNS
import Std.Async.TCP
import Std.Time.DateTime.Timestamp

/-!
# The program

Answers the requests of a run from this machine: files from the disk, exchanges over connections
without encryption, the time from the clock.
-/

namespace LearningIndex
namespace Main

open Std.Async

def readError : IO.Error → Storage.ReadError
  | .noFileOrDirectory _ _ _ => .notFound
  | .inappropriateType _ 20 _ => .notDirectory
  | .inappropriateType _ 21 _ => .isDirectory
  | .invalidArgument _ 36 _ => .nameTooLong
  | error => .other (toString error)

def readFile (path : String) : IO (Except Storage.ReadError ByteString) := do
  if path.toList.contains '\x00' then return .error .zeroByte
  try
    let bytes ← IO.FS.readBinFile path
    return .ok bytes.toList
  catch error => return .error (readError error)

/-- Receives bytes until the other side closes the connection. -/
partial def receive (client : TCP.Socket.Client) (received : ByteArray) : Async ByteArray := do
  match ← client.recv? 65536 with
  | some bytes => receive client (received ++ bytes)
  | none => return received

/-- The address of a socket. -/
def socketAddress (port : Nat) : Std.Net.IPAddr → Std.Net.SocketAddress
  | .v4 address => .v4 ⟨address, port.toUInt16⟩
  | .v6 address => .v6 ⟨address, port.toUInt16⟩

/-- Sends bytes to an endpoint and receives what comes back. -/
def talk (endpoint : Http.Endpoint) (bytes : ByteArray) : Async ByteArray := do
  let addresses ← DNS.getAddrInfo endpoint.host (toString endpoint.port)
  match addresses.toList with
  | [] => throw (IO.userError "unknown host")
  | address :: _ =>
    let client ← TCP.Socket.Client.mk
    client.connect (socketAddress endpoint.port address)
    client.send bytes
    receive client ByteArray.empty

/-- Exchanges a request for a response, if the server can be reached. -/
def exchange (address : String) (request : Http.Request) : IO (Option Http.Response) := do
  match Http.Endpoint.ofAddress? address with
  | none => return none
  | some endpoint =>
    try
      let bytes := Http.Wire.requestBytes endpoint request
      let received ← (talk endpoint ⟨bytes.toArray⟩).block
      return Http.Wire.readResponse request.method received.toList
    catch _ => return none

def clock : IO Calendar.Instant := do
  let now ← Std.Time.Timestamp.now
  let nanoseconds := now.toNanosecondsSinceUnixEpoch.toInt
  let instant := Calendar.Instant.ofUnix? (nanoseconds / 1000000000)
    (nanoseconds % 1000000000).toNat
  return instant.getD Calendar.Instant.epoch

/-- Answers a request to the machine. -/
def serve (question : Machine.Request) : IO (Machine.Reply question) :=
  match question with
  | .read path => readFile path
  | .exchange address request => exchange address request
  | .clock => clock

/-- Runs a program on this machine. -/
def execute {ε α : Type} : Program machine ε α → IO (Except ε α)
  | .done result => return result
  | .ask question next => do
    let reply ← serve question
    execute (next reply)

def environment : IO (List (String × String)) := do
  match ← readFile "/proc/self/environ" with
  | .ok block => return EnvironmentBlock.assignments block
  | .error _ => return []

end Main
end LearningIndex

open LearningIndex in
def main (arguments : List String) : IO UInt32 := do
  let assignments ← Main.environment
  match ← Main.execute (Run.run assignments arguments : Program machine RunError RunOutcome) with
  | .ok outcome =>
    IO.print outcome.output
    IO.eprint outcome.errors
    return outcome.exitCode.toUInt32
  | .error error =>
    IO.eprint error.message
    return error.exitCode.toUInt32
