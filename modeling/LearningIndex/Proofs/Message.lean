import LearningIndex.Indexing.MessageJson
import LearningIndex.Proofs.Calendar.Wording
import LearningIndex.Proofs.Json.Records

/-!
# Messages come back from JSON

A message is read back from any JSON text whose object has the fields of the message, in whatever
order and with whatever unknown fields beside them that the reader takes for values.  Fields that it
refuses, such as arrays nested too deep, make it refuse the message.
-/

namespace LearningIndex

open Calendar (instant?_text)

namespace Literal

/-- Whether a reader takes a field for a named value: its name has a text, and its literal keeps the
limit of nesting and has numbers in range and strings with a text. -/
def IsReadable (limit : Nat) (field : Option String × Literal) : Prop :=
  field.1.isSome = true ∧ (field.2.valueWithin? limit).isSome = true

theorem isSome_fieldsWithin?_iff {limit : Nat} {fields : List (Option String × Literal)} :
    (fieldsWithin? limit fields).isSome = true ↔ ∀ field ∈ fields, IsReadable limit field := by
  induction fields with
  | nil => simp [fieldsWithin?]
  | cons field fields ih =>
      obtain ⟨name, literal⟩ := field
      rw [List.forall_mem_cons, ← ih, IsReadable]
      cases name with
      | none => simp [fieldsWithin?]
      | some name =>
          cases first : valueWithin? limit literal <;> cases rest : fieldsWithin? limit fields <;>
            simp [fieldsWithin?, first, rest]

theorem isSome_value?_object_iff {fields : List (Option String × Literal)} :
    (object fields).value?.isSome = true ↔ ∀ field ∈ fields, IsReadable (depthLimit - 1) field := by
  rw [value?, valueWithin?, if_neg (by decide), Option.isSome_map, isSome_fieldsWithin?_iff]

end Literal

namespace IndexMessage

/-- The named values of a message beside its kind, in their declared order. -/
def details : IndexMessage → List (String × Json)
  | indexLearningMaterials ids force => [("ids", .integers ids), ("force", .bool force)]
  | indexCourses ids stamp => [("ids", .integers ids), ("stamp", .string stamp.text)]
  | indexMeshDescriptors ids stamp => [("ids", .strings ids), ("stamp", .string stamp.text)]
  | deleteLearningMaterial id => [("id", .integer id)]
  | deleteCourse id => [("id", .integer id)]
  | deleteSession id => [("id", .integer id)]
  | deleteMeshDescriptor id => [("id", .string id)]

/-- The named values of a message, in their declared order. -/
def fields (message : IndexMessage) : List (String × Json) :=
  ("type", .string message.kind) :: message.details

/-- Whether the integer ids of a message have 64 bits. -/
def Fits : IndexMessage → Prop
  | indexLearningMaterials ids _ => ∀ id ∈ ids, Json.isSigned64 id = true
  | indexCourses ids _ => ∀ id ∈ ids, Json.isSigned64 id = true
  | indexMeshDescriptors _ _ => True
  | deleteLearningMaterial id => Json.isSigned64 id = true
  | deleteCourse id => Json.isSigned64 id = true
  | deleteSession id => Json.isSigned64 id = true
  | deleteMeshDescriptor _ => True

/-- The message that a JSON text stands for. -/
def decode? (text : String) : Option IndexMessage :=
  (Json.parseLiteral? text).bind ofLiteral?

theorem toJson_eq (message : IndexMessage) : message.toJson = .ofFields message.fields := by
  cases message <;> rfl

theorem names_distinct (message : IndexMessage) : (message.fields.map (·.1)).Nodup := by
  cases message <;> simp [fields, details]

theorem isPlain_integer {value : Int} (fits : Json.isSigned64 value = true) :
    (Json.integer value).IsPlain := by
  simp only [Json.isSigned64, Bool.and_eq_true, decide_eq_true_eq] at fits
  exact .integer fits.1 (by omega)

theorem isPlain_integers {values : List Int}
    (fits : ∀ value ∈ values, Json.isSigned64 value = true) : (Json.integers values).IsPlain := by
  refine .array fun item member => ?_
  obtain ⟨value, inside, rfl⟩ := List.mem_map.mp member
  exact isPlain_integer (fits value inside)

theorem depth_scalars {α : Type} {write : α → Json} (flat : ∀ value, (write value).depth = 0)
    (values : List α) : (Json.array (values.map write)).depth ≤ 1 := by
  rw [Json.depth]
  refine Nat.succ_le_succ (Json.itemsDepth_le_iff.mpr fun item member => ?_)
  obtain ⟨value, -, rfl⟩ := List.mem_map.mp member
  exact (flat value).le

/-- What stands under a name in a message is a scalar or an array of scalars. -/
theorem plain_of_mem_fields {message : IndexMessage} (fits : message.Fits) :
    ∀ field ∈ message.fields, field.2.IsPlain ∧ field.2.depth ≤ 1 := by
  have text (text : String) : (Json.string text).IsPlain ∧ (Json.string text).depth ≤ 1 :=
    ⟨.string text, Nat.zero_le 1⟩
  refine List.forall_mem_cons.mpr ⟨text message.kind, ?_⟩
  cases message with
  | indexLearningMaterials ids force =>
      exact List.forall_mem_cons.mpr ⟨⟨isPlain_integers fits, depth_scalars (fun _ => rfl) ids⟩,
        List.forall_mem_singleton.mpr ⟨.bool force, Nat.zero_le 1⟩⟩
  | indexCourses ids stamp =>
      exact List.forall_mem_cons.mpr ⟨⟨isPlain_integers fits, depth_scalars (fun _ => rfl) ids⟩,
        List.forall_mem_singleton.mpr (text stamp.text)⟩
  | indexMeshDescriptors ids stamp =>
      have plainIds : (Json.strings ids).IsPlain := .array fun item member => by
        obtain ⟨id, -, rfl⟩ := List.mem_map.mp member
        exact .string id
      exact List.forall_mem_cons.mpr ⟨⟨plainIds, depth_scalars (fun _ => rfl) ids⟩,
        List.forall_mem_singleton.mpr (text stamp.text)⟩
  | deleteMeshDescriptor id => exact List.forall_mem_singleton.mpr (text id)
  | deleteLearningMaterial id | deleteCourse id | deleteSession id =>
      exact List.forall_mem_singleton.mpr ⟨isPlain_integer fits, Nat.zero_le 1⟩

theorem isReadable_fields {message : IndexMessage} (fits : message.Fits) {limit : Nat}
    (positive : 1 ≤ limit) :
    ∀ field ∈ Literal.ofFields message.fields, Literal.IsReadable limit field := by
  intro field member
  obtain ⟨own, inside, rfl⟩ := Literal.exists_of_mem_ofFields member
  obtain ⟨plain, shallow⟩ := plain_of_mem_fields fits own inside
  have read := Literal.valueWithin?_ofValue plain (shallow.trans positive)
  exact ⟨rfl, by rw [read, Option.isSome_some]⟩

theorem stamp?_ofValue (stamp : Calendar.Instant) :
    stamp? (.ofValue (.string stamp.text)) = some stamp := by
  rw [stamp?, Literal.ofValue, Literal.string?, Option.bind_some, instant?_text]

/-- The kind of a message and its other fields are told apart. -/
theorem splitKind?_object {kind : Literal} {rest fields : List (Option String × Literal)}
    (perm : fields.Perm ((some "type", kind) :: rest))
    (others : ∀ field ∈ rest, field.1 ≠ some "type") :
    ∃ fields', splitKind? (.object fields) = some (kind, .object fields') ∧ fields'.Perm rest := by
  have first := perm.filter fun field => field.1 == some "type"
  have later := perm.filter fun field => !(field.1 == some "type")
  have nothing : rest.filter (fun field => field.1 == some "type") = [] :=
    List.filter_eq_nil_iff.mpr fun field member => by simpa using others field member
  have all : rest.filter (fun field => !(field.1 == some "type")) = rest :=
    List.filter_eq_self.mpr fun field member => by simpa using others field member
  rw [List.filter_cons_of_pos (by simp), nothing, List.perm_singleton] at first
  rw [List.filter_cons_of_neg (by simp), all] at later
  refine ⟨_, ?_, later⟩
  rw [splitKind?, List.partition_eq_filter_filter]
  simp only [first]
  rfl

theorem ofKind?_object {message : IndexMessage} (fits : message.Fits)
    {fields unknown : List (Option String × Literal)}
    (perm : fields.Perm (Literal.ofFields message.details ++ unknown))
    (texts : ∀ field ∈ unknown, field.1.isSome = true)
    (apart : ∀ field ∈ unknown, ∀ name ∈ message.details.map (·.1), field.1 ≠ some name) :
    ofKind? message.kind (.object fields) = some message := by
  rw [Literal.ofFields_eq] at perm
  have names : (message.details.map fun field => (field.1, Literal.ofValue field.2)).map (·.1) =
      message.details.map (·.1) := by
    simp [Function.comp_def]
  have distinct := (List.nodup_cons.mp message.names_distinct).2
  rw [← names] at distinct apart
  obtain ⟨record, read, found⟩ := Literal.exists_record distinct perm texts apart
  rw [names] at read
  -- No unknown field has a declared name, so each declared field is found as it was written.
  have required {α : Type} {take : Literal → Option α} {result : α} (name : String) (value : Json)
      (member : (name, value) ∈ message.details) (takes : take (.ofValue value) = some result) :
      record.required name take = some result := by
    rw [Literal.Record.required, found _ (List.mem_map_of_mem member), Option.bind_some, takes]
  cases message with
  | indexLearningMaterials ids force =>
      have readIds := required "ids" _ (by simp [details]) (Literal.list?_integers fits)
      have readForce := required "force" (.bool force) (by simp [details])
        (show Literal.bool? _ = some force from rfl)
      simp only [details, List.map_cons, List.map_nil] at read
      change materialsOf? (.object fields) = _
      simp [materialsOf?, read, readIds, readForce]
  | indexCourses ids stamp =>
      have readIds := required "ids" _ (by simp [details]) (Literal.list?_integers fits)
      have readStamp := required "stamp" _ (by simp [details]) (stamp?_ofValue stamp)
      simp only [details, List.map_cons, List.map_nil] at read
      change coursesOf? (.object fields) = _
      simp [coursesOf?, read, readIds, readStamp]
  | indexMeshDescriptors ids stamp =>
      have readIds := required "ids" _ (by simp [details]) (Literal.list?_strings ids)
      have readStamp := required "stamp" _ (by simp [details]) (stamp?_ofValue stamp)
      simp only [details, List.map_cons, List.map_nil] at read
      change meshDescriptorsOf? (.object fields) = _
      simp [meshDescriptorsOf?, read, readIds, readStamp]
  | deleteMeshDescriptor id =>
      have readId := required "id" (.string id) (by simp [details])
        (show Literal.string? _ = some id from rfl)
      simp only [details, List.map_cons, List.map_nil] at read
      change (textIdOf? (.object fields)).map _ = _
      simp [textIdOf?, read, readId]
  | deleteLearningMaterial id | deleteCourse id | deleteSession id =>
      have readId := required "id" _ (by simp [details]) (Literal.signed64?_ofValue fits)
      simp only [details, List.map_cons, List.map_nil] at read
      change (idOf? (.object fields)).map _ = _
      simp [idOf?, read, readId]

section Others

variable {message : IndexMessage} {fields unknown : List (Option String × Literal)}

theorem isSome_value?_iff (fits : message.Fits)
    (perm : fields.Perm (Literal.ofFields message.fields ++ unknown)) :
    (Literal.object fields).value?.isSome = true ↔
      ∀ field ∈ unknown, Literal.IsReadable (Literal.depthLimit - 1) field := by
  rw [Literal.isSome_value?_object_iff]
  have own := isReadable_fields fits (show 1 ≤ Literal.depthLimit - 1 by decide)
  constructor
  · exact fun all field member => all field (perm.symm.subset (List.mem_append_right _ member))
  · intro others field member
    rcases List.mem_append.mp (perm.subset member) with mine | other
    · exact own field mine
    · exact others field other

/-- A message is read whatever stands beside its fields, as long as the reader takes it for
values. -/
theorem ofLiteral?_object (fits : message.Fits)
    (perm : fields.Perm (Literal.ofFields message.fields ++ unknown))
    (apart : ∀ field ∈ unknown, ∀ name ∈ message.fields.map (·.1), field.1 ≠ some name)
    (readable : ∀ field ∈ unknown, Literal.IsReadable (Literal.depthLimit - 1) field) :
    ofLiteral? (.object fields) = some message := by
  obtain ⟨value, isValue⟩ := Option.isSome_iff_exists.mp
    ((isSome_value?_iff fits perm).mpr readable)
  have kindFirst := (List.nodup_cons.mp message.names_distinct).1
  have others : ∀ field ∈ Literal.ofFields message.details ++ unknown, field.1 ≠ some "type" := by
    intro field member
    rcases List.mem_append.mp member with mine | other
    · obtain ⟨own, inside, rfl⟩ := Literal.exists_of_mem_ofFields mine
      exact fun same => kindFirst (List.mem_map.mpr ⟨own, inside, Option.some.inj same⟩)
    · exact apart field other "type" List.mem_cons_self
  obtain ⟨rest, split, perm'⟩ := splitKind?_object perm others
  have read := ofKind?_object fits perm' (fun field member => (readable field member).1)
    fun field member name known => apart field member name (List.mem_cons_of_mem _ known)
  simp only [ofLiteral?, isValue, split, Option.bind_eq_bind, Option.bind_some]
  exact read

/-- A field that the reader does not take for a value makes it refuse the message. -/
theorem ofLiteral?_eq_none (fits : message.Fits)
    (perm : fields.Perm (Literal.ofFields message.fields ++ unknown))
    (unreadable : ¬∀ field ∈ unknown, Literal.IsReadable (Literal.depthLimit - 1) field) :
    ofLiteral? (.object fields) = none := by
  rw [← isSome_value?_iff fits perm, Option.not_isSome_iff_eq_none] at unreadable
  simp [ofLiteral?, unreadable]

theorem decode?_of_readable (fits : message.Fits) {text : String}
    (object : Json.parseLiteral? text = some (.object fields))
    (perm : fields.Perm (Literal.ofFields message.fields ++ unknown))
    (apart : ∀ field ∈ unknown, ∀ name ∈ message.fields.map (·.1), field.1 ≠ some name)
    (readable : ∀ field ∈ unknown, Literal.IsReadable (Literal.depthLimit - 1) field) :
    decode? text = some message := by
  rw [decode?, object, Option.bind_some, ofLiteral?_object fits perm apart readable]

theorem decode?_eq_none (fits : message.Fits) {text : String}
    (object : Json.parseLiteral? text = some (.object fields))
    (perm : fields.Perm (Literal.ofFields message.fields ++ unknown))
    (unreadable : ¬∀ field ∈ unknown, Literal.IsReadable (Literal.depthLimit - 1) field) :
    decode? text = none := by
  rw [decode?, object, Option.bind_some, ofLiteral?_eq_none fits perm unreadable]

end Others

/-- An object is read from its text as the literals of its fields. -/
theorem parseLiteral?_compact {fields : Fields} (plain : (Json.object fields).IsPlain) :
    Json.parseLiteral? (Json.object fields).compact = some (.object (Literal.ofFields fields)) := by
  rw [Json.parseLiteral?, Json.compact, String.toList_ofList, plain.isLegible.literal?_render,
    Literal.ofValue]

theorem decode?_compact {message : IndexMessage} (fits : message.Fits) :
    decode? message.toJson.compact = some message := by
  have plain : message.toJson.IsPlain := by
    rw [toJson_eq]
    exact Json.isPlain_ofFields fun field member => (plain_of_mem_fields fits field member).1
  have perm : (Literal.ofFields (Fields.ofList message.fields)).Perm
      (Literal.ofFields message.fields ++ []) := by
    rw [Literal.ofFields_eq, Literal.ofFields_eq, List.append_nil]
    exact ((Fields.ofList_perm message.names_distinct).map _).map _
  rw [toJson_eq] at plain ⊢
  exact decode?_of_readable fits (parseLiteral?_compact plain) perm (by simp) (by simp)

/-- A message comes back from its JSON text, whose field `type` is the kind.  It comes back from any
other text of an object that has the fields of the message, in any order and among unknown fields
that the reader takes for values; with an unknown field that it refuses the message is refused.  Two
messages with the same text are equal. -/
theorem encoding_faithful {message : IndexMessage} (fits : message.Fits) :
    decode? message.toJson.compact = some message ∧
    message.toJson.get? "type" = some (.string message.kind) ∧
    (∀ text fields unknown, Json.parseLiteral? text = some (.object fields) →
      fields.Perm (Literal.ofFields message.fields ++ unknown) →
      (∀ field ∈ unknown, ∀ name ∈ message.fields.map (·.1), field.1 ≠ some name) →
      ((∀ field ∈ unknown, Literal.IsReadable (Literal.depthLimit - 1) field) →
        decode? text = some message) ∧
      ((¬∀ field ∈ unknown, Literal.IsReadable (Literal.depthLimit - 1) field) →
        decode? text = none)) ∧
    ∀ other : IndexMessage, other.Fits → other.toJson.compact = message.toJson.compact →
      other = message := by
  refine ⟨decode?_compact fits, ?_, fun text fields unknown object perm apart => ?_,
    fun other fits' same => ?_⟩
  · cases message <;> rfl
  · exact ⟨decode?_of_readable fits object perm apart, decode?_eq_none fits object perm⟩
  · have read := decode?_compact fits'
    rw [same, decode?_compact fits] at read
    exact (Option.some.inj read).symm

/-- The stamp in the leap second at the end of 2016, when a quarter of it is over. -/
private def leapStamp : Calendar.Instant :=
  ⟨⟨2016, 12, 31, by decide⟩, 23, 59, 60, 250000000, by decide, by decide, by decide, by decide⟩

/-- The fields of a request with a note between them and the kind at the end. -/
private def notedFields : Fields :=
  [("ids", .integers [-7]), ("note", .array [.null]), ("stamp", .string leapStamp.text),
    ("type", .string "index_courses")]

theorem encoding_faithful_noted :
    decode? (Json.object notedFields).compact = some (indexCourses [-7] leapStamp) := by
  have fits : (indexCourses [-7] leapStamp).Fits := List.forall_mem_singleton.mpr rfl
  have ascending : notedFields.Pairwise (·.1 < ·.1) :=
    List.pairwise_map.mp (show (notedFields.map (·.1)).Pairwise (· < ·) by decide)
  have plain : (Json.object notedFields).IsPlain := by
    refine .object ascending ?_
    simp only [notedFields, List.forall_mem_cons]
    exact ⟨isPlain_integers (List.forall_mem_singleton.mpr rfl),
      .array (List.forall_mem_singleton.mpr .null), .string _, .string _, by simp⟩
  have perm : (Literal.ofFields notedFields).Perm
      (Literal.ofFields (indexCourses [-7] leapStamp).fields ++ [(some "note", .array [.null])]) :=
    (show (Literal.ofFields (notedFields.take 3) ++ Literal.ofFields (notedFields.drop 3)).Perm _
      from List.perm_append_comm).trans ((List.Perm.swap _ _ _).cons _ |>.cons _)
  refine ((encoding_faithful fits).2.2.1 _ _ _ (parseLiteral?_compact plain) perm ?_).1 ?_
  · simp [fields, details]
  · exact List.forall_mem_singleton.mpr ⟨rfl, rfl⟩

namespace Refused

/-- Arrays inside one another, so many of them. -/
def nested : Nat → Json
  | 0 => .null
  | depth + 1 => .array [nested depth]

theorem isPlain_nested (depth : Nat) : (nested depth).IsPlain := by
  induction depth with
  | zero => exact .null
  | succ depth ih => exact .array (List.forall_mem_singleton.mpr ih)

theorem valueWithin?_nested {limit depth : Nat} (deep : limit < depth) :
    (Literal.ofValue (nested depth)).valueWithin? limit = none := by
  induction depth generalizing limit with
  | zero => omega
  | succ depth ih =>
      rw [nested, Literal.ofValue, Literal.valueWithin?]
      split_ifs with zero
      · rfl
      · simp [Literal.ofItems, Literal.itemsWithin?, ih (show limit - 1 < depth by omega)]

/-- The fields of a request to delete with an unknown field of 200 nested arrays. -/
def deepFields : Fields :=
  [("id", .integer 1), ("type", .string "delete_course"), ("x", nested 200)]

end Refused

open Refused in
/-- Not every unknown field leaves the message as it is: one that is nested too deep makes the
reader refuse it. -/
theorem not_decode?_of_extra :
    ¬∀ (message : IndexMessage) (text : String) (fields unknown : List (Option String × Literal)),
      message.Fits → Json.parseLiteral? text = some (.object fields) →
      fields.Perm (Literal.ofFields message.fields ++ unknown) →
      (∀ field ∈ unknown, ∀ name ∈ message.fields.map (·.1), field.1 ≠ some name) →
      decode? text = some message := by
  intro always
  have fits : (deleteCourse 1).Fits := rfl
  have ascending : deepFields.Pairwise (·.1 < ·.1) :=
    List.pairwise_map.mp (show (deepFields.map (·.1)).Pairwise (· < ·) by decide)
  have plain : (Json.object deepFields).IsPlain := by
    refine .object ascending ?_
    simp only [deepFields, List.forall_mem_cons]
    exact ⟨isPlain_integer rfl, .string _, isPlain_nested 200, by simp⟩
  have perm : (Literal.ofFields deepFields).Perm (Literal.ofFields (deleteCourse 1).fields ++
      [(some "x", .ofValue (nested 200))]) := .swap _ _ _
  have unreadable : ¬∀ field ∈ [(some "x", Literal.ofValue (nested 200))],
      Literal.IsReadable (Literal.depthLimit - 1) field := by
    intro readable
    have value := (List.forall_mem_singleton.mp readable).2
    rw [valueWithin?_nested (by decide)] at value
    cases value
  have object := parseLiteral?_compact plain
  have read := always _ _ _ _ fits object perm (by simp [fields, details])
  rw [decode?_eq_none fits object perm unreadable] at read
  cases read

end IndexMessage
end LearningIndex
