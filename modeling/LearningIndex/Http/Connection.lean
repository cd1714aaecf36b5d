import LearningIndex.Engine.Settings
import LearningIndex.Http.Address
import LearningIndex.Http.Client
import LearningIndex.Machine

/-!
# Connections

A connection is opened with the settings of the engine and performs one operation after the other,
each by at most one exchange with the server.
-/

namespace LearningIndex
namespace Http

/-- A way to the engine. -/
structure Connection where
  address : String
  /-- The credentials that go with each request. -/
  authorization : Option String
deriving DecidableEq, Repr

/-- The header that carries the credentials of some settings, if there are any. -/
def authorizationOf (settings : SearchSettings) : Option String :=
  settings.credentials?.map fun credentials =>
    basicCredentials credentials.username credentials.password

namespace Connection

def ofSettings (settings : SearchSettings) : Except EngineError Connection :=
  match settings.url with
  | none => .error .unavailable
  | some url =>
    if !settings.isEnabled then .error .unavailable
    else if isAddress url then .ok ⟨url, authorizationOf settings⟩
    else .error (.connection "invalid address")

def perform {ε : Type} (connection : Connection) (call : EngineCall) :
    Program machine ε (Except EngineError call.Answer) :=
  match requestFor connection.authorization call with
  | none => .done (.ok (unsentAnswer call))
  | some request => do
    let response ← Machine.exchange connection.address request
    return match response with
      | some response => readResponse call response
      | none => .error (noResponse call)

end Connection
end Http
end LearningIndex
