import LearningIndex.Json.Value

/-!
# JSON literals

A literal is what a JSON text says before any of it is interpreted: numbers keep their digits,
objects keep the order and the repetition of their fields.  A string whose escapes name half of a
surrogate pair is a literal without a text; it can be skipped, but it is no value.

`value?` interprets a literal as a JSON value, in which the last of several fields with one name
counts, and `ofValue` is the literal of a value.
-/

namespace LearningIndex

namespace NumberLiteral

/-- The value of the number, if it is in range. -/
def value? (literal : NumberLiteral) : Option Json :=
  match literal.integer? with
  | some value => some (.integer value)
  | none => literal.float?.map .float

end NumberLiteral

/-- A JSON text before interpretation. -/
inductive Literal where
  | null
  | bool (value : Bool)
  | number (digits : NumberLiteral)
  /-- A string; without a text if it has half of a surrogate pair. -/
  | string (text : Option String)
  | array (items : List Literal)
  | object (fields : List (Option String × Literal))
deriving Repr, Inhabited

namespace Literal

/-- The number of containers that may stand inside one another in a value. -/
def depthLimit : Nat := 127

mutual

/-- The value of a literal whose containers are at most `depth` deep, if every number is in range
and every string has a text. -/
def valueWithin? (depth : Nat) (literal : Literal) : Option Json :=
  match literal with
  | null => some .null
  | bool value => some (.bool value)
  | number digits => digits.value?
  | string text => text.map .string
  | array items => if depth = 0 then none else (itemsWithin? (depth - 1) items).map .array
  | object fields =>
    if depth = 0 then none
    else (fieldsWithin? (depth - 1) fields).map Json.ofFields

/-- The values of the items of an array. -/
def itemsWithin? (depth : Nat) (items : List Literal) : Option (List Json) :=
  match items with
  | [] => some []
  | item :: items =>
    match valueWithin? depth item, itemsWithin? depth items with
    | some value, some values => some (value :: values)
    | _, _ => none

def fieldsWithin? (depth : Nat) (fields : List (Option String × Literal)) :
    Option (List (String × Json)) :=
  match fields with
  | [] => some []
  | (name, field) :: fields =>
    match name, valueWithin? depth field, fieldsWithin? depth fields with
    | some name, some value, some values => some ((name, value) :: values)
    | _, _, _ => none

end

def value? (literal : Literal) : Option Json :=
  literal.valueWithin? depthLimit

mutual

def ofValue (value : Json) : Literal :=
  match value with
  | .null => null
  | .bool value => bool value
  | .integer value => number (.ofInt value)
  | .float value => number (.ofFloat value)
  | .string text => string (some text)
  | .array items => array (ofItems items)
  | .object fields => object (ofFields fields)

def ofItems (items : List Json) : List Literal :=
  match items with
  | [] => []
  | item :: items => ofValue item :: ofItems items

def ofFields (fields : List (String × Json)) : List (Option String × Literal) :=
  match fields with
  | [] => []
  | (name, value) :: fields => (some name, ofValue value) :: ofFields fields

end

end Literal
end LearningIndex
