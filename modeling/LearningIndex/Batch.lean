/-!
# Batches

A list is cut into runs of a given length, of which only the last may be shorter.
-/

namespace LearningIndex

/-- The runs of at most `size` items of a list, in order; a size of zero counts as one. -/
def batches {α : Type} (size : Nat) : List α → List (List α)
  | [] => []
  | first :: rest =>
    (first :: rest.take (size - 1)) :: batches size (rest.drop (size - 1))
termination_by items => items.length
decreasing_by simp only [List.length_drop, List.length_cons]; omega

end LearningIndex
