import LearningIndex.Proofs.Json.Records

/-!
# Records as they may be written

A record is written as an object with its fields in any order.  A field may be left out if it has a
default and the record has it.  However a record is written, a field is found in the literal of the
object with a value that stands for it, or it is not found and the record has its default.
-/

namespace LearningIndex
namespace Json

/-- A field of a record: what may be written under its name, and whether it may be left out. -/
structure Slot where
  name : String
  /-- The values that stand for what the record has in the field. -/
  IsValue : Json → Prop
  /-- Whether what the record has in the field is the default of the field. -/
  MayMiss : Prop
  legible : ∀ value, IsValue value → value.IsLegible

/-- The values of a record with the given fields. -/
inductive IsRecord (slots : List Slot) : Json → Prop
  | object {fields : List (String × Json)} (distinct : (fields.map (·.1)).Nodup)
      (known : ∀ field ∈ fields, ∃ slot ∈ slots, slot.name = field.1 ∧ slot.IsValue field.2)
      (missing : ∀ slot ∈ slots, slot.name ∉ fields.map (·.1) → slot.MayMiss) :
      IsRecord slots (.object fields)

/-- The arrays of records that stand for the items of a list, in their order. -/
inductive IsRecords {α : Type} (slots : α → List Slot) (items : List α) : Json → Prop
  | array {values : List Json}
      (each : List.Forall₂ (fun item value => IsRecord (slots item) value) items values) :
      IsRecords slots items (.array values)

theorem exists_of_forall₂ {α β : Type} {related : α → β → Prop} {items : List α} {others : List β}
    (each : List.Forall₂ related items others) :
    ∀ other ∈ others, ∃ item ∈ items, related item other := by
  induction each with
  | nil => simp
  | cons first _ ih =>
      refine List.forall_mem_cons.mpr ⟨⟨_, List.mem_cons_self, first⟩, fun other member => ?_⟩
      obtain ⟨item, inside, later⟩ := ih other member
      exact ⟨item, List.mem_cons_of_mem _ inside, later⟩

theorem IsRecord.isLegible {slots : List Slot} {value : Json} (isRecord : IsRecord slots value) :
    value.IsLegible := by
  obtain ⟨_, known, _⟩ := isRecord
  refine .object fun field member => ?_
  obtain ⟨slot, -, -, isValue⟩ := known field member
  exact slot.legible field.2 isValue

theorem IsRecords.isLegible {α : Type} {slots : α → List Slot} {items : List α} {value : Json}
    (isRecords : IsRecords slots items value) : value.IsLegible := by
  obtain ⟨each⟩ := isRecords
  refine .array fun value member => ?_
  obtain ⟨item, -, isRecord⟩ := exists_of_forall₂ each value member
  exact isRecord.isLegible

theorem isLegible_map {α : Type} {write : α → Json} (legible : ∀ item, (write item).IsLegible)
    (items : List α) : (Json.array (items.map write)).IsLegible := by
  refine .array fun value member => ?_
  obtain ⟨item, -, rfl⟩ := List.mem_map.mp member
  exact legible item

theorem isLegible_optionalString (text : Option String) : (optionalString text).IsLegible := by
  cases text with
  | none => exact .null
  | some text => exact .string text

namespace Slot

/-- A field in which one value stands for what the record has. -/
def of (name : String) (value : Json) (legible : value.IsLegible) (MayMiss : Prop) : Slot :=
  ⟨name, (· = value), MayMiss, fun _ same => same ▸ legible⟩

/-- An integer that must be written. -/
def requiredInteger (name : String) (value : Int) : Slot :=
  of name (.integer value) (.integer value) False

def requiredText (name text : String) : Slot :=
  of name (.string text) (.string text) False

/-- An integer, zero by default. -/
def integer (name : String) (value : Int) : Slot :=
  of name (.integer value) (.integer value) (value = 0)

def text (name text : String) : Slot :=
  of name (.string text) (.string text) (text = "")

/-- A text or null, which is the default. -/
def optionalText (name : String) (text : Option String) : Slot :=
  of name (.optionalString text) (isLegible_optionalString text) (text = none)

def texts (name : String) (texts : List String) : Slot :=
  of name (.strings texts) (isLegible_map .string texts) (texts = [])

def integers (name : String) (values : List Int) : Slot :=
  of name (.integers values) (isLegible_map .integer values) (values = [])

/-- A record inside the record, which must be written. -/
def requiredRecord (name : String) (slots : List Slot) : Slot :=
  ⟨name, IsRecord slots, False, fun _ => IsRecord.isLegible⟩

/-- Records inside the record, none by default. -/
def records {α : Type} (name : String) (slots : α → List Slot) (items : List α) : Slot :=
  ⟨name, IsRecords slots items, items = [], fun _ => IsRecords.isLegible⟩

end Slot

/-! ## Every field may be written -/

theorem isRecord_ofFields {slots : List Slot} {names : List String} {fields : List (String × Json)}
    (declares : slots.map (·.name) = names) (distinct : names.Nodup)
    (each : List.Forall₂ (fun slot field => slot.name = field.1 ∧ slot.IsValue field.2)
      slots fields) : IsRecord slots (ofFields fields) := by
  have written : names = fields.map (·.1) :=
    declares ▸ List.forall₂_eq_eq_eq ▸ List.forall₂_map_left_iff.mpr
      (List.forall₂_map_right_iff.mpr (each.imp fun _ _ fits => fits.1))
  have perm := Fields.ofList_perm (written ▸ distinct)
  refine .object ((perm.map _).nodup_iff.mpr (written ▸ distinct)) (fun field member => ?_)
    fun slot listed absent => ?_
  · exact exists_of_forall₂ each field (perm.subset member)
  · have named : slot.name ∈ names := declares ▸ List.mem_map_of_mem listed
    exact absurd ((perm.map _).symm.subset (written ▸ named)) absent

theorem isRecords_map {α : Type} {slots : α → List Slot} {write : α → Json}
    (each : ∀ item, IsRecord (slots item) (write item)) (items : List α) :
    IsRecords slots items (.array (items.map write)) :=
  .array (List.forall₂_map_right_iff.mpr (List.forall₂_same.mpr fun item _ => each item))

/-! ## What is found -/

/-- What is found in a record under the name of a field: a value that stands for it, or nothing
where the field may be left out. -/
def Slot.FoundIn (slot : Slot) (record : Literal.Record) : Prop :=
  (∃ value, slot.IsValue value ∧ record.find? slot.name = some (.ofValue value)) ∨
    slot.MayMiss ∧ record.find? slot.name = none

/-- However a record is written, its literal is a record in which each field is found. -/
theorem IsRecord.exists_record {slots : List Slot} {value : Json} (isRecord : IsRecord slots value)
    {names : List String} (declares : slots.map (·.name) = names) (distinct : names.Nodup) :
    ∃ record, (Literal.ofValue value).record? names = some record ∧
      ∀ slot ∈ slots, slot.FoundIn record := by
  subst declares
  obtain @⟨fields, once, known, missing⟩ := isRecord
  let own := fields.map fun field => (field.1, Literal.ofValue field.2)
  have names : own.map (·.1) = fields.map (·.1) := by
    simp [own, Function.comp_def]
  have declared : ∀ field ∈ own, field.1 ∈ slots.map (·.name) := by
    intro field member
    obtain ⟨field, inside, rfl⟩ := List.mem_map.mp member
    obtain ⟨slot, listed, same, -⟩ := known field inside
    exact List.mem_map.mpr ⟨slot, listed, same⟩
  refine ⟨⟨own⟩, ?_, fun slot listed => ?_⟩
  · rw [Literal.ofValue, Literal.ofFields_eq]
    exact Literal.record?_named (names ▸ once) declared
  · by_cases written : slot.name ∈ fields.map (·.1)
    · obtain ⟨field, inside, same⟩ := List.mem_map.mp written
      obtain ⟨other, listed', same', isValue⟩ := known field inside
      -- No two fields of a record have one name, so the field stands for this one.
      obtain rfl : other = slot :=
        List.inj_on_of_nodup_map distinct listed' listed (same'.trans same)
      have member : (other.name, Literal.ofValue field.2) ∈ own :=
        List.mem_map.mpr ⟨field, inside, by rw [same]⟩
      exact .inl ⟨field.2, isValue, Literal.lookup_of_mem (names ▸ once) member⟩
    · refine .inr ⟨missing slot listed written, ?_⟩
      refine List.lookup_eq_none_iff.mpr fun field member => bne_iff_ne.mpr fun same => ?_
      exact written (names ▸ List.mem_map.mpr ⟨field, member, same.symm⟩)

namespace Slot

variable {record : Literal.Record}

section Reading

variable {α : Type} {slot : Slot} {read : Literal → Option α} {result fallback : α}

theorem FoundIn.required (found : slot.FoundIn record) (stays : ¬slot.MayMiss)
    (reads : ∀ value, slot.IsValue value → read (.ofValue value) = some result) :
    record.required slot.name read = some result := by
  rcases found with ⟨value, isValue, present⟩ | ⟨mayMiss, -⟩
  · rw [Literal.Record.required, present, Option.bind_some, reads value isValue]
  · exact absurd mayMiss stays

theorem FoundIn.withDefault (found : slot.FoundIn record)
    (default : slot.MayMiss → result = fallback)
    (reads : ∀ value, slot.IsValue value → read (.ofValue value) = some result) :
    record.withDefault slot.name read fallback = some result := by
  rcases found with ⟨value, isValue, present⟩ | ⟨mayMiss, absent⟩
  · simp only [Literal.Record.withDefault, present, reads value isValue]
  · simp only [Literal.Record.withDefault, absent, default mayMiss]

end Reading

variable {name : String}

theorem FoundIn.required_text {text : String} (found : (requiredText name text).FoundIn record) :
    record.required name Literal.string? = some text :=
  found.required not_false fun _ same => same ▸ rfl

theorem FoundIn.required_integer {value : Int} (found : (requiredInteger name value).FoundIn record)
    (fits : isSigned64 value = true) : record.required name Literal.signed64? = some value :=
  found.required not_false fun _ same => same ▸ Literal.signed64?_ofValue fits

theorem FoundIn.required_record {α : Type} {slots : List Slot} {read : Literal → Option α}
    {result : α} (found : (requiredRecord name slots).FoundIn record)
    (reads : ∀ value, IsRecord slots value → read (.ofValue value) = some result) :
    record.required name read = some result :=
  found.required not_false reads

theorem FoundIn.withDefault_integer {value : Int} {read : Literal → Option Int}
    (found : (integer name value).FoundIn record)
    (reads : read (.ofValue (.integer value)) = some value) :
    record.withDefault name read 0 = some value :=
  found.withDefault id fun _ same => same ▸ reads

theorem FoundIn.text_eq {text : String} (found : (Slot.text name text).FoundIn record) :
    record.text name = some text :=
  found.withDefault id fun _ same => same ▸ rfl

theorem FoundIn.optionalText_eq {text : Option String}
    (found : (optionalText name text).FoundIn record) : record.optionalText name = some text :=
  found.withDefault id fun _ same => same ▸ Literal.optional?_ofValue text

theorem FoundIn.texts_eq {texts : List String} (found : (Slot.texts name texts).FoundIn record) :
    record.texts name = some texts :=
  found.withDefault id fun _ same => same ▸ Literal.list?_strings texts

theorem FoundIn.integers_eq {values : List Int} (found : (integers name values).FoundIn record)
    (fit : ∀ value ∈ values, isSigned64 value = true) : record.integers name = some values :=
  found.withDefault id fun _ same => same ▸ Literal.list?_integers fit

theorem FoundIn.withDefault_records {α : Type} {slots : α → List Slot}
    {read : Literal → Option α} {items : List α} (found : (records name slots items).FoundIn record)
    (reads : ∀ item ∈ items, ∀ value, IsRecord (slots item) value →
      read (.ofValue value) = some item) :
    record.withDefault name (Literal.list? read) [] = some items :=
  found.withDefault id fun _ (.array each) => Literal.list?_of_forall₂ each reads

end Slot
end Json
end LearningIndex
