/-!
# Operators

A leaf condition compares a fact with an expected value by one of eight
operators. The set is closed: any other name is unknown.

An operator has a name, under which rules write it, and a phrase, by which an
explanation reads it.
-/

namespace Verdict

/-- The ways to compare a fact with an expected value. -/
inductive Operator where
  | equal
  | lessThan
  | lessThanInclusive
  | greaterThan
  | greaterThanInclusive
  | member
  | notMember
  | contains
  deriving DecidableEq

namespace Operator

/-- Every operator, in the order in which messages list them. -/
def all : List Operator :=
  [.equal, .lessThan, .lessThanInclusive, .greaterThan, .greaterThanInclusive,
    .member, .notMember, .contains]

/-- The name of an operator in a rule. -/
def name : Operator → String
  | .equal => "equal"
  | .lessThan => "lessThan"
  | .lessThanInclusive => "lessThanInclusive"
  | .greaterThan => "greaterThan"
  | .greaterThanInclusive => "greaterThanInclusive"
  | .member => "in"
  | .notMember => "notIn"
  | .contains => "contains"

/-- The words by which an explanation reads an operator. -/
def phrase : Operator → String
  | .equal => "is equal to"
  | .lessThan => "is less than"
  | .lessThanInclusive => "is <="
  | .greaterThan => "is greater than"
  | .greaterThanInclusive => "is >="
  | .member => "is in"
  | .notMember => "is not in"
  | .contains => "contains"

/-- The operator of a name. -/
def ofName? (text : String) : Option Operator :=
  all.find? fun operator => operator.name == text

@[simp] theorem ofName?_name (operator : Operator) : ofName? operator.name = some operator := by
  cases operator <;> rfl

theorem name_of_ofName?
    {text : String}
    {operator : Operator}
    (found : ofName? text = some operator) :
    operator.name = text := by
  simpa using List.find?_some found

end Operator

end Verdict
