/-!
# Finite doubles

A finite double is held as its sign and the 63 bits below it, so that equality
and order are those of integers and no runtime arithmetic is involved.

Every operation computes an exact quotient of naturals and rounds it once, to
the nearest double with ties to the even one.
-/

namespace Verdict

/-- A finite double: a sign above an exponent field and a 52-bit fraction. -/
structure Binary64 where
  negative : Bool
  magnitude : Nat
  finite : magnitude < 0x7ff0000000000000
  deriving DecidableEq

namespace Binary64

/-- The zero of the given sign. -/
def zero (negative : Bool) : Binary64 :=
  ⟨negative, 0, by decide⟩

/-- The largest double of the given sign. -/
def largest (negative : Bool) : Binary64 :=
  ⟨negative, 0x7fefffffffffffff, by decide⟩

/-- The number of doubles of one sign that share an exponent field. -/
def binade : Nat :=
  0x10000000000000

/-- Both zeros, and nothing else, are zero. -/
def isZero (double : Binary64) : Bool :=
  double.magnitude == 0

/-- The place of a double in the order of the reals; both zeros are at zero. -/
def rank (double : Binary64) : Int :=
  if double.negative then -double.magnitude else double.magnitude

/-- Numeric equality, which does not tell the two zeros apart. -/
def same (left right : Binary64) : Bool :=
  left.rank == right.rank

/-- Numeric order. -/
def order (left right : Binary64) : Ordering :=
  compare left.rank right.rank

/-- The double with the other sign. -/
def negate (double : Binary64) : Binary64 :=
  { double with negative := !double.negative }

/-- The integer that is scaled by a power of two to give the magnitude. -/
def significand (double : Binary64) : Nat :=
  if double.magnitude < binade then double.magnitude
  else binade + double.magnitude % binade

/-- The power of two that scales the significand. -/
def exponent (double : Binary64) : Int :=
  max 1 (double.magnitude / binade : Nat) - 1075

/-- The integer nearest to a quotient; a half goes to the even neighbour. -/
def nearest (numerator denominator : Nat) : Nat :=
  let quotient := numerator / denominator
  let remainder := numerator % denominator
  if 2 * remainder < denominator ∨ (2 * remainder = denominator ∧ quotient % 2 = 0)
  then quotient
  else quotient + 1

/-- The exponent of the last place of the double nearest to a positive quotient. -/
def lastPlace (numerator denominator : Nat) : Int :=
  let estimate : Int := numerator.log2 - denominator.log2 - 52
  let place :=
    if numerator <<< (-estimate).toNat < binade * denominator <<< estimate.toNat
    then estimate - 1
    else estimate
  max place (-1074)

/-- The double nearest to a quotient, if it is finite. -/
def ofQuotient? (negative : Bool) (numerator denominator : Nat) : Option Binary64 :=
  if numerator = 0 then some (zero negative)
  else
    let place := lastPlace numerator denominator
    let units := nearest (numerator <<< (-place).toNat) (denominator <<< place.toNat)
    let magnitude := (place + 1074).toNat * binade + units
    if finite : magnitude < 0x7ff0000000000000 then some ⟨negative, magnitude, finite⟩ else none

/-- The double nearest to an integer; beyond the finite range it is the largest one. -/
def ofInt (value : Int) : Binary64 :=
  (ofQuotient? (value < 0) value.natAbs 1).getD (largest (value < 0))

/-- The rounded product, if it is finite. -/
def mul? (left right : Binary64) : Option Binary64 :=
  let scale := left.exponent + right.exponent
  ofQuotient? (left.negative != right.negative)
    (left.significand * right.significand <<< scale.toNat) (1 <<< (-scale).toNat)

/-- The rounded quotient by a divisor other than zero, if it is finite. -/
def div? (left right : Binary64) : Option Binary64 :=
  let scale := left.exponent - right.exponent
  ofQuotient? (left.negative != right.negative)
    (left.significand <<< scale.toNat) (right.significand <<< (-scale).toNat)

/-- The double nearest to a power of ten; beyond the finite range it is the largest one. -/
def tenPow (power : Nat) : Binary64 :=
  ofInt (Nat.pow 10 power)

/-- Division by a power of ten, which takes at most 308 places in one rounded step. -/
def divTenPow (double : Binary64) (power : Nat) : Binary64 :=
  if power ≤ 308 then (double.div? (tenPow power)).getD double
  else if double.isZero then double
  else ((double.div? (tenPow 308)).getD double).divTenPow (power - 308)
termination_by power

/-- Multiplication by a power of ten in one rounded step, if the product is finite. -/
def mulTenPow? (double : Binary64) (power : Nat) : Option Binary64 :=
  if power ≤ 308 then double.mul? (tenPow power)
  else if double.isZero then some double
  else none

/-- The double that a significand scaled by a power of ten reads as. The
significand and the scaling are rounded one after the other. -/
def ofDecimal? (negative : Bool) (significand : Nat) (power : Int) : Option Binary64 :=
  let whole := ofInt significand
  let scaled :=
    if power < 0 then some (whole.divTenPow power.natAbs) else whole.mulTenPow? power.natAbs
  scaled.map fun double => if negative then double.negate else double

end Binary64

end Verdict
