import LearningIndex.Json.Reader

/-!
# Records in JSON

Records are read from literals.  A record comes as an object of its fields, in any order and with
unknown fields beside them, or as an array of its fields in their declared order.  A known field
that is repeated is refused, and so is an array that is longer than the record.
-/

namespace LearningIndex
namespace Literal

/-- The integer of a literal, if it is one of 64 bits with a sign. -/
def signed64? : Literal → Option Int
  | number digits =>
    digits.integer?.bind fun value => if Json.isSigned64 value then some value else none
  | _ => none

def signed32? : Literal → Option Int
  | number digits =>
    digits.integer?.bind fun value =>
      if -0x80000000 ≤ value ∧ value < 0x80000000 then some value else none
  | _ => none

def string? : Literal → Option String
  | string text => text
  | _ => none

def bool? : Literal → Option Bool
  | bool value => some value
  | _ => none

/-- A value, or nothing where the literal is null. -/
def optional? {α : Type} (read : Literal → Option α) : Literal → Option (Option α)
  | null => some none
  | literal => (read literal).map some

/-- The items of an array, all of which can be read. -/
def list? {α : Type} (read : Literal → Option α) : Literal → Option (List α)
  | array items => items.mapM read
  | _ => none

/-- The fields of an object as free values, the last of each name. -/
def fields? (literal : Literal) (depth : Nat) : Option Fields :=
  match literal with
  | object _ => (literal.valueWithin? depth).bind Json.object?
  | _ => none

/-- The fields of a record: the literal of each declared name that is present. -/
structure Record where
  /-- The names that are present, with their literals. -/
  present : List (String × Literal)

/-- The fields of an object that are declared, if each occurs once and every name has a text. -/
def declaredFields (names : List String) :
    List (Option String × Literal) → Option (List (String × Literal))
  | [] => some []
  | (name, field) :: rest =>
    match name, declaredFields names rest with
    | some name, some present =>
      if names.contains name then
        if present.any fun (other, _) => other == name then none
        else some ((name, field) :: present)
      else some present
    | _, _ => none

/-- The record with the declared field names that a literal stands for. -/
def record? (names : List String) : Literal → Option Record
  | object fields => (declaredFields names fields).map Record.mk
  | array items => if items.length ≤ names.length then some ⟨names.zip items⟩ else none
  | _ => none

namespace Record

def find? (record : Record) (name : String) : Option Literal :=
  record.present.lookup name

/-- The value of a field that must be present. -/
def required {α : Type} (record : Record) (name : String) (read : Literal → Option α) :
    Option α :=
  (record.find? name).bind read

/-- The value of a field, or the default where it is missing. -/
def withDefault {α : Type} (record : Record) (name : String) (read : Literal → Option α)
    (fallback : α) : Option α :=
  match record.find? name with
  | some literal => read literal
  | none => some fallback

/-- The text of a field, empty where it is missing. -/
def text (record : Record) (name : String) : Option String :=
  record.withDefault name string? ""

def optionalText (record : Record) (name : String) : Option (Option String) :=
  record.withDefault name (optional? string?) none

def texts (record : Record) (name : String) : Option (List String) :=
  record.withDefault name (list? string?) []

def integers (record : Record) (name : String) : Option (List Int) :=
  record.withDefault name (list? signed64?) []

end Record
end Literal
end LearningIndex
