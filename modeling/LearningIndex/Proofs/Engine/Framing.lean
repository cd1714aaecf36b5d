import LearningIndex.Engine.Bulk
import LearningIndex.Proofs.Json.RoundTrip
import LearningIndex.Text.Basic

/-!
# The lines of a bulk request

The engine reads the body of a bulk request line by line: an action, then its document.  No string
of an action or of a document, however deep, can end a line early, so the lines the engine sees are
the values that were written, and they tell which operations were meant.
-/

namespace LearningIndex

namespace Text

theorem splitAtMark_append {mark : Char} {part : List Char} (absent : mark ∉ part)
    (rest : List Char) :
    splitAtMark mark (part ++ mark :: rest) = part :: splitAtMark mark rest := by
  induction part with
  | nil => rw [List.nil_append, splitAtMark, if_pos rfl]
  | cons character part ih =>
      obtain ⟨apart, later⟩ := not_or.mp (List.mem_cons.not.mp absent)
      rw [List.cons_append, splitAtMark, if_neg (Ne.symm apart), ih later]

/-- Lines that hold no mark come back when a text is split at the marks that end them. -/
theorem splitAtMark_flatMap {mark : Char} {lines : List (List Char)}
    (absent : ∀ line ∈ lines, mark ∉ line) :
    splitAtMark mark (lines.flatMap (· ++ [mark])) = lines ++ [[]] := by
  induction lines with
  | nil => rfl
  | cons line lines ih =>
      obtain ⟨first, others⟩ := List.forall_mem_cons.mp absent
      rw [List.flatMap_cons, List.append_assoc, List.singleton_append, splitAtMark_append first,
        ih others, List.cons_append]

theorem count_flatMap {mark : Char} {lines : List (List Char)}
    (absent : ∀ line ∈ lines, mark ∉ line) :
    (lines.flatMap (· ++ [mark])).count mark = lines.length := by
  induction lines with
  | nil => rfl
  | cons line lines ih =>
      obtain ⟨first, others⟩ := List.forall_mem_cons.mp absent
      rw [List.flatMap_cons, List.count_append, List.count_append, List.count_eq_zero.mpr first,
        List.count_singleton_self, ih others, List.length_cons]
      omega

end Text

/-! ## Reading a body -/

def BulkAction.ofJson? (value : Json) : Option BulkAction := do
  let target ← value.get? "index"
  let index ← (← target.get? "_index").string?
  let id ← (← target.get? "_id").string?
  return ⟨index, id⟩

namespace BulkOperation

/-- The operations of a list of lines, each an action and a document in turn, up to the empty piece
after the last line.  The values may be nested up to a limit. -/
def readLines? (limit : Nat) : List (List Char) → Option (List BulkOperation)
  | [[]] => some []
  | action :: document :: rest => do
    let action ← (Json.readWithin? limit action).bind BulkAction.ofJson?
    let document ← (Json.readWithin? limit document).bind Json.object?
    let rest ← readLines? limit rest
    return ⟨action, document⟩ :: rest
  | _ => none

/-- The operations that the body of a bulk request announces. -/
def readBody? (limit : Nat) (text : List Char) : Option (List BulkOperation) :=
  readLines? limit (Text.splitAtMark '\n' text)

/-- Whether the document of an operation has no floating point number. -/
def IsPlain (operation : BulkOperation) : Prop :=
  (Json.object operation.document).IsPlain

/-- The nesting of the document of an operation. -/
def depth (operation : BulkOperation) : Nat :=
  (Json.object operation.document).depth

end BulkOperation

namespace BulkAction

theorem isPlain_toJson (action : BulkAction) : action.toJson.IsPlain := by
  have target : (Json.ofFields
      [("_index", .string action.index), ("_id", .string action.id)]).IsPlain :=
    Json.isPlain_ofFields (by simp [Json.IsPlain.string])
  exact .object (List.pairwise_singleton _ _) (by simpa using target)

theorem ofJson?_toJson (action : BulkAction) : ofJson? action.toJson = some action := by
  rfl

end BulkAction

namespace BulkOperation

variable {operations : List BulkOperation}

theorem isPlain_of_mem_lines {operation : BulkOperation} (plain : operation.IsPlain) {line : Json}
    (member : line ∈ operation.lines) : line.IsPlain := by
  rw [lines, List.mem_pair] at member
  rcases member with rfl | rfl
  · exact operation.action.isPlain_toJson
  · exact plain

/-- No string of an operation ends its line early. -/
theorem newline_notMem_render (plain : ∀ operation ∈ operations, operation.IsPlain) {line : Json}
    (member : line ∈ operations.flatMap lines) : '\n' ∉ line.render := by
  obtain ⟨operation, inside, within⟩ := List.mem_flatMap.mp member
  intro newline
  have visible := (isPlain_of_mem_lines (plain operation inside) within).isVisible_render _ newline
  exact absurd visible (by decide)

theorem body_eq (operations : List BulkOperation) :
    body operations = ((operations.flatMap lines).map Json.render).flatMap (· ++ ['\n']) := by
  rw [body, List.flatMap_map]

theorem splitAtMark_body (plain : ∀ operation ∈ operations, operation.IsPlain) :
    Text.splitAtMark '\n' (body operations) =
      (operations.flatMap lines).map Json.render ++ [[]] := by
  rw [body_eq]
  refine Text.splitAtMark_flatMap fun line member => ?_
  obtain ⟨value, inside, rfl⟩ := List.mem_map.mp member
  exact newline_notMem_render plain inside

theorem count_newline_body (plain : ∀ operation ∈ operations, operation.IsPlain) :
    (body operations).count '\n' = 2 * operations.length := by
  rw [body_eq, Text.count_flatMap]
  · simp [lines, List.length_flatMap]
    omega
  · intro line member
    obtain ⟨value, inside, rfl⟩ := List.mem_map.mp member
    exact newline_notMem_render plain inside

theorem readLines?_lines {limit : Nat} (two : 2 ≤ limit)
    (plain : ∀ operation ∈ operations, operation.IsPlain)
    (shallow : ∀ operation ∈ operations, operation.depth ≤ limit) :
    readLines? limit ((operations.flatMap lines).map Json.render ++ [[]]) = some operations := by
  induction operations with
  | nil => rfl
  | cons operation operations ih =>
      obtain ⟨plainFirst, plains⟩ := List.forall_mem_cons.mp plain
      obtain ⟨shallowFirst, shallows⟩ := List.forall_mem_cons.mp shallow
      have action := operation.action.isPlain_toJson.readWithin?_render
        (show operation.action.toJson.depth ≤ limit from two)
      have document := Json.IsPlain.readWithin?_render plainFirst shallowFirst
      simp [lines, readLines?, action, document, ih plains shallows, BulkAction.ofJson?_toJson,
        Json.object?]

theorem readBody?_body {limit : Nat} (two : 2 ≤ limit)
    (plain : ∀ operation ∈ operations, operation.IsPlain)
    (shallow : ∀ operation ∈ operations, operation.depth ≤ limit) :
    readBody? limit (body operations) = some operations := by
  rw [readBody?, splitAtMark_body plain, readLines?_lines two plain shallow]

theorem exists_limit (operations : List BulkOperation) :
    ∃ limit, 2 ≤ limit ∧ ∀ operation ∈ operations, operation.depth ≤ limit := by
  induction operations with
  | nil => exact ⟨2, le_refl 2, by simp⟩
  | cons operation operations ih =>
      obtain ⟨limit, two, shallow⟩ := ih
      refine ⟨max operation.depth limit, by omega, List.forall_mem_cons.mpr ⟨by omega, ?_⟩⟩
      exact fun other member => (shallow other member).trans (Nat.le_max_right _ _)

/-- The body of a bulk request tells the operations it was made from.  It has two newlines for each
operation, of which each ends a line and none stands inside one, and it is empty only without
operations.  The lines are the actions and the documents in turn, and reading them gives back the
operations, for every limit of nesting that the documents keep; so two lists of operations with the
same body are equal. -/
theorem body_framing (plain : ∀ operation ∈ operations, operation.IsPlain) :
    (body operations).count '\n' = 2 * operations.length ∧
    (body operations = [] ↔ operations = []) ∧
    Text.splitAtMark '\n' (body operations) =
      (operations.flatMap lines).map Json.render ++ [[]] ∧
    (∀ line ∈ operations.flatMap lines, '\n' ∉ line.render) ∧
    (∀ limit, 2 ≤ limit → (∀ operation ∈ operations, operation.depth ≤ limit) →
      readBody? limit (body operations) = some operations) ∧
    ∀ others : List BulkOperation, (∀ operation ∈ others, operation.IsPlain) →
      body others = body operations → others = operations := by
  refine ⟨count_newline_body plain, ?_, splitAtMark_body plain,
    fun line => newline_notMem_render plain, fun limit two => readBody?_body two plain,
    fun others plains same => ?_⟩
  · refine ⟨fun empty => ?_, fun none => none ▸ rfl⟩
    have count := count_newline_body plain
    rw [empty, List.count_nil] at count
    exact List.eq_nil_of_length_eq_zero (by omega)
  · obtain ⟨limit, two, shallow⟩ := exists_limit (others ++ operations)
    obtain ⟨first, second⟩ := List.forall_mem_append.mp shallow
    have read := readBody?_body two plains first
    rw [same, readBody?_body two plain second] at read
    exact (Option.some.inj read).symm

/-- A document with quotes, line ends and an array of an object keeps its lines. -/
theorem body_framing_nested :
    let operation : BulkOperation :=
      ⟨⟨"courses \x22\n", "course_\\1"⟩,
        [("a\n", .array [.object [("\x01", .string "é\n"), ("\x02", .integer (-7))], .null])]⟩
    readBody? 3 (body [operation, operation]) = some [operation, operation] := by
  intro operation
  have inner : (Json.object [("\x01", .string "é\n"), ("\x02", .integer (-7))]).IsPlain :=
    .object (List.pairwise_pair.mpr (show "\x01" < "\x02" by decide))
      (List.forall_mem_cons.mpr ⟨.string _,
        List.forall_mem_cons.mpr ⟨.integer (by decide) (by decide), by simp⟩⟩)
  have plain : operation.IsPlain :=
    .object (List.pairwise_singleton _ _) (List.forall_mem_cons.mpr ⟨.array
      (List.forall_mem_cons.mpr ⟨inner, List.forall_mem_cons.mpr ⟨.null, by simp⟩⟩), by simp⟩)
  have depth : operation.depth = 3 := rfl
  have plains : ∀ other ∈ [operation, operation], other.IsPlain := by simp [plain]
  exact (body_framing plains).2.2.2.2.1 3 (by decide) (by simp [depth])

end BulkOperation
end LearningIndex
