import LearningIndex.Number.Literal

/-!
# JSON values

Values as the engine and the snapshots exchange them.  Integers and floating point numbers are kept
apart.  The fields of an object are listed with ascending names, each name once, as long as objects
are built with `insert`.
-/

namespace LearningIndex

/-- A JSON value. -/
inductive Json where
  | null
  | bool (value : Bool)
  /-- An integer, from `-2 ^ 63` to `2 ^ 64 - 1` when it was read. -/
  | integer (value : Int)
  /-- A number with a fraction or an exponent, or outside the range of integers. -/
  | float (value : Binary64)
  | string (value : String)
  | array (items : List Json)
  | object (fields : List (String × Json))
deriving BEq, Repr, Inhabited

/-- The named values of an object, by ascending name. -/
abbrev Fields := List (String × Json)

namespace Fields

/-- Sets a field, replacing an earlier value of that name. -/
def insert (name : String) (value : Json) : Fields → Fields
  | [] => [(name, value)]
  | (other, present) :: rest =>
    if name = other then (name, value) :: rest
    else if name < other then (name, value) :: (other, present) :: rest
    else (other, present) :: insert name value rest

def get? (name : String) : Fields → Option Json
  | [] => none
  | (other, value) :: rest => if name = other then some value else get? name rest

/-- The fields of a list of named values, of which the last one of a name counts. -/
def ofList (pairs : List (String × Json)) : Fields :=
  pairs.foldl (fun fields (name, value) => insert name value fields) []

end Fields

namespace Json

def ofFields (pairs : List (String × Json)) : Json :=
  object (Fields.ofList pairs)

def singleton (name : String) (value : Json) : Json :=
  object [(name, value)]

def strings (texts : List String) : Json :=
  array (texts.map string)

def integers (values : List Int) : Json :=
  array (values.map integer)

def natural (value : Nat) : Json :=
  integer value

def optionalString : Option String → Json
  | some text => string text
  | none => null

/-- The value of a field; what is not an object has none. -/
def get? (name : String) : Json → Option Json
  | object fields => Fields.get? name fields
  | _ => none

def string? : Json → Option String
  | string text => some text
  | _ => none

def array? : Json → Option (List Json)
  | array items => some items
  | _ => none

def object? : Json → Option Fields
  | object fields => some fields
  | _ => none

def bool? : Json → Option Bool
  | bool value => some value
  | _ => none

/-- Whether an integer fits 64 bits with a sign. -/
def isSigned64 (value : Int) : Bool :=
  -0x8000000000000000 ≤ value && value < 0x8000000000000000

def isUnsigned64 (value : Int) : Bool :=
  0 ≤ value && value < 0x10000000000000000

def signed64? : Json → Option Int
  | integer value => if isSigned64 value then some value else none
  | _ => none

/-- The integer, if the value is one of 64 bits without a sign. -/
def unsigned64? : Json → Option Nat
  | integer value => if isUnsigned64 value then some value.toNat else none
  | _ => none

/-- The number as a floating point number, if the value is a number. -/
def float? : Json → Option Binary64
  | integer value => some (Binary64.ofInt value)
  | float value => some value
  | _ => none

mutual

/-- The value with each of its texts changed; names of fields stay. -/
def mapStrings (change : String → String) (value : Json) : Json :=
  match value with
  | string text => string (change text)
  | array items => array (mapItems change items)
  | object fields => object (mapFields change fields)
  | other => other

/-- The items with each of their texts changed. -/
def mapItems (change : String → String) (items : List Json) : List Json :=
  match items with
  | [] => []
  | item :: items => mapStrings change item :: mapItems change items

/-- The fields with each text of their values changed. -/
def mapFields (change : String → String) (fields : List (String × Json)) :
    List (String × Json) :=
  match fields with
  | [] => []
  | (name, value) :: fields => (name, mapStrings change value) :: mapFields change fields

end

end Json
end LearningIndex
