import Verdict.Json.Decoder

/-!
# Operators in JSON

An operator is written as its name. It is also accepted as the only key of an
object whose value is null.
-/

namespace Verdict
namespace Operator

/-- The written form of an operator. -/
def toJson (operator : Operator) : Json :=
  .string operator.name

/-- An operator, by its name. -/
def decoder : (depth : Nat) → Decoder Operator :=
  Decoder.choice (all.map fun operator => (operator.name, operator))

end Operator
end Verdict
