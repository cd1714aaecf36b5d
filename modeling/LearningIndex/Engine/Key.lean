import LearningIndex.Json.Fault

/-!
# Keys

Ids under which entities are found in an index.  Learning materials, courses and sessions have
integers, descriptors have texts; both are sent to the engine and read back from it.

A skip set holds the ids that need no indexing.  It holds no id but the candidates it was made for.
-/

namespace LearningIndex

/-- An id that can be sent to the engine and read back. -/
class Key (κ : Type) where
  toJson : κ → Json
  ofJson : Json → Except Json.Fault κ

instance : Key Int where
  toJson := Json.integer
  ofJson := Json.expectSigned

instance : Key String where
  toJson := Json.string
  ofJson := Json.expectString

/-- Ids that need no indexing. -/
structure SkipSet (κ : Type) where
  /-- The ids, each of them once. -/
  ids : List κ
deriving Repr

namespace SkipSet

variable {κ : Type}

def empty : SkipSet κ := ⟨[]⟩

/-- The ids found among the candidates. -/
def ofCandidates [DecidableEq κ] (candidates found : List κ) : SkipSet κ :=
  ⟨(found.filter fun id => candidates.contains id).eraseDups⟩

def contains [DecidableEq κ] (skip : SkipSet κ) (id : κ) : Bool :=
  skip.ids.contains id

def size (skip : SkipSet κ) : Nat :=
  skip.ids.length

def isEmpty (skip : SkipSet κ) : Bool :=
  skip.ids.isEmpty

end SkipSet
end LearningIndex
