import Verdict.Error

/-!
# Comparison

An operator compares a fact with an expected value. Nothing is converted: equal
values are equal constructor by constructor, and only two numbers, two strings
or two booleans are ordered.

A fact that is absent compares as null.
-/

namespace Verdict

/-- Whether an ordering answers an operator of order. -/
def Operator.accepts : Operator → Ordering → Bool
  | .lessThan, ordering => ordering.isLT
  | .lessThanInclusive, ordering => ordering.isLE
  | .greaterThan, ordering => ordering.isGT
  | .greaterThanInclusive, ordering => ordering.isGE
  | _, _ => false

namespace Json

/-- The order of two values that have one: numbers, strings by their bytes, or
booleans with false first. -/
def order? : Json → Json → Option Ordering
  | .number left, .number right => some (left.order right)
  | .string left, .string right => some (compare left right)
  | .boolean left, .boolean right => some (compare left right)
  | _, _ => none

/-- Whether a value equals one of several. -/
def isAmong (value : Json) (items : List Json) : Bool :=
  items.any fun item => item.same value

end Json

namespace Operator

/-- The answer of an operator of order. -/
def compareOrdered (operator : Operator) (fact expected : Json) : Except Error Bool :=
  match fact.order? expected with
  | some ordering => .ok (operator.accepts ordering)
  | none => .error (.typeMismatch (.incomparable operator expected.kind fact.kind))

/-- Whether the expected value lists the fact. -/
def listed (operator : Operator) (fact expected : Json) : Except Error Bool :=
  match expected with
  | .array items => .ok (fact.isAmong items)
  | other => .error (.typeMismatch (.notList operator other.kind))

/-- The answer of an operator for a fact and an expected value. -/
def compare (operator : Operator) (fact expected : Json) : Except Error Bool :=
  match operator with
  | .equal => .ok (fact.same expected)
  | .lessThan | .lessThanInclusive | .greaterThan | .greaterThanInclusive =>
    operator.compareOrdered fact expected
  | .member => operator.listed fact expected
  | .notMember => (operator.listed fact expected).map (!·)
  | .contains =>
    match fact with
    | .array items => .ok (expected.isAmong items)
    | _ => .ok false

/-- The answer of an operator for a fact that may be absent. -/
def evaluate (operator : Operator) (fact : Option Json) (expected : Json) : Except Error Bool :=
  operator.compare (fact.getD .null) expected

end Operator

end Verdict
