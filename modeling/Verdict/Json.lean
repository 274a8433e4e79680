import Verdict.Dictionary
import Verdict.Number

/-!
# JSON values

Facts, expected values and event parameters are JSON values. An object is a
list of members. A value that was read keeps its members in increasing order of
their keys; a value built for writing keeps the order in which it is written.

Equality compares two values constructor by constructor and never converts
between the two kinds of numbers.
-/

namespace Verdict

/-- A JSON value. -/
inductive Json where
  | null
  | boolean (value : Bool)
  | number (value : Number)
  | string (text : String)
  | array (items : List Json)
  | object (members : List (String × Json))

/-- The six kinds of JSON values. -/
inductive Kind where
  | null
  | boolean
  | number
  | string
  | array
  | object
  deriving DecidableEq

/-- The name of a kind. -/
def Kind.name : Kind → String
  | .null => "null"
  | .boolean => "boolean"
  | .number => "number"
  | .string => "string"
  | .array => "array"
  | .object => "object"

namespace Json

instance : Inhabited Json :=
  ⟨.null⟩

/-- The kind of a value. -/
def kind : Json → Kind
  | .null => .null
  | .boolean _ => .boolean
  | .number _ => .number
  | .string _ => .string
  | .array _ => .array
  | .object _ => .object

/-- The object of a dictionary. -/
def ofDictionary (dictionary : Dictionary Json) : Json :=
  .object dictionary.entries

/-- An object of those fields that are present, in the given order. -/
def ofFields (fields : List (String × Option Json)) : Json :=
  .object (fields.filterMap fun field => field.2.map (field.1, ·))

/-- A natural number as a value; it must fit 64 bits to be written exactly. -/
def ofNat (value : Nat) : Json :=
  if small : value < 0x10000000000000000 then .number (.ofNat value small)
  else .number (.double (.ofInt value))

mutual

/-- Strict equality of values. -/
def same : Json → Json → Bool
  | .null, .null => true
  | .boolean left, .boolean right => left == right
  | .number left, .number right => left.same right
  | .string left, .string right => left == right
  | .array left, .array right => sameItems left right
  | .object left, .object right => sameMembers left right
  | _, _ => false

/-- Equality of arrays, item by item. -/
def sameItems : List Json → List Json → Bool
  | [], [] => true
  | left :: lefts, right :: rights => same left right && sameItems lefts rights
  | _, _ => false

/-- Equality of objects, member by member in their common order. -/
def sameMembers : List (String × Json) → List (String × Json) → Bool
  | [], [] => true
  | (leftKey, left) :: lefts, (rightKey, right) :: rights =>
    leftKey == rightKey && same left right && sameMembers lefts rights
  | _, _ => false

end

/-- Equality of dictionaries of values. -/
def sameDictionary (left right : Dictionary Json) : Bool :=
  sameMembers left.entries right.entries

mutual

/-- The largest number of brackets that are open at one place of a value. -/
def height : Json → Nat
  | .array items => itemsHeight items + 1
  | .object members => membersHeight members + 1
  | _ => 0

/-- The height of the tallest item. -/
def itemsHeight : List Json → Nat
  | [] => 0
  | item :: rest => max (height item) (itemsHeight rest)

/-- The height of the tallest member. -/
def membersHeight : List (String × Json) → Nat
  | [] => 0
  | (_, value) :: rest => max (height value) (membersHeight rest)

end

/-- The member of an object that has the given key. -/
def get? : Json → String → Option Json
  | .object members, key => members.lookup key
  | _, _ => none

end Json

end Verdict
