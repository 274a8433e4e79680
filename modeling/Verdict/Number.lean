import Verdict.Decimal.Shortest

/-!
# Numbers

A number is an integer that fits 64 bits, with or without a sign, or a finite
double. The two kinds are never equal to each other, but they are ordered
together.

Integers that fit one common 64-bit range are compared exactly. All other pairs
are compared as doubles, each side rounded to the nearest one first.
-/

namespace Verdict

/-- The integers that fit 64 bits, with a sign or without one. -/
abbrev Number.InRange (value : Int) : Prop :=
  -0x8000000000000000 ≤ value ∧ value < 0x10000000000000000

/-- An integer between `-2^63` and `2^64 - 1`, or a finite double. -/
inductive Number where
  | integer (value : Int) (inRange : Number.InRange value)
  | double (value : Binary64)
  deriving DecidableEq

namespace Number

/-- The number that a small natural denotes. -/
def ofNat (value : Nat) (small : value < 0x10000000000000000) : Number :=
  .integer value (by unfold InRange; omega)

/-- The number of an integer within the admitted range. -/
def ofInt? (value : Int) : Option Number :=
  if inRange : InRange value then some (.integer value inRange) else none

/-- The double nearest to a number. -/
def toBinary64 : Number → Binary64
  | .integer value _ => .ofInt value
  | .double value => value

/-- Equality of numbers of one kind; an integer never equals a double. -/
def same : Number → Number → Bool
  | .integer left _, .integer right _ => left == right
  | .double left, .double right => left.same right
  | _, _ => false

/-- Whether two integers share the signed or the unsigned 64-bit range. -/
def shareRange (left right : Int) : Bool :=
  (left < 0x8000000000000000 && right < 0x8000000000000000) || (0 ≤ left && 0 ≤ right)

/-- The order of two numbers. -/
def order : Number → Number → Ordering
  | .integer left leftRange, .integer right rightRange =>
    if shareRange left right then compare left right
    else (toBinary64 (.integer left leftRange)).order (toBinary64 (.integer right rightRange))
  | left, right => left.toBinary64.order right.toBinary64

/-- A sign before digits that are negative, negative zero included. -/
def signText (negative : Bool) : String :=
  if negative then "-" else ""

/-- A decimal with an exponent: one digit, the others after a point, and a
signed power of ten. -/
def scientificText (decimal : Decimal) : String :=
  let power := decimal.leadingPower
  let mantissa :=
    match decimal.digitText with
    | [] => []
    | [digit] => [digit]
    | digit :: others => digit :: '.' :: others
  let sign := if power < 0 then "-" else "+"
  String.ofList mantissa ++ "e" ++ sign ++ toString power.natAbs

/-- A decimal without an exponent, always with a point. -/
def pointText (decimal : Decimal) : String :=
  let (whole, fraction) := decimal.positional
  String.ofList whole ++ "." ++ String.ofList (if fraction.isEmpty then ['0'] else fraction)

/-- The text of a double: its shortest digits, with an exponent outside the
range from `1e-5` up to, but not including, `1e16`. -/
def doubleText (double : Binary64) : String :=
  let decimal := Decimal.shortest double
  let power := decimal.leadingPower
  signText double.negative ++
    if -5 ≤ power ∧ power ≤ 15 then pointText decimal else scientificText decimal

/-- The text of a number. -/
def text : Number → String
  | .integer value _ => toString value
  | .double value => doubleText value

end Number

end Verdict
