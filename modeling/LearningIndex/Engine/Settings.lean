import LearningIndex.Text.Basic

/-!
# Settings of the engine

Where the search engine is and how it is used.  Without an address, searching is disabled.
-/

namespace LearningIndex

structure Credentials where
  username : String
  password : String
deriving DecidableEq, Repr

/-- How the search engine is used. -/
structure SearchSettings where
  url : Option String := none
  username : Option String := none
  password : Option String := none
  /-- The largest body of a request that the engine accepts, in bytes. -/
  uploadLimit : Nat := 8000000
  scrollKeepAlive : String := "5m"
deriving DecidableEq, Repr

namespace SearchSettings

def isEnabled (settings : SearchSettings) : Bool :=
  settings.url.any fun url => !Text.isAllBlank url.toList

def withCredentials (settings : SearchSettings) (credentials : Credentials) : SearchSettings :=
  { settings with username := some credentials.username, password := some credentials.password }

/-- The credentials, if both parts are given. -/
def credentials? (settings : SearchSettings) : Option Credentials :=
  match settings.username, settings.password with
  | some username, some password => some ⟨username, password⟩
  | _, _ => none

end SearchSettings
end LearningIndex
