import Verdict.Binary64

/-!
# Shortest decimals

A double is written with the fewest decimal digits that read back to it. The
search goes through the grids of powers of ten from coarse to fine and takes
the first one that has a point in the interval of reals rounding to the double.

Of two points on that grid the nearer one is taken, and of two equally near
ones the even one.
-/

namespace Verdict

/-- Decimal digits, read as one integer, scaled by a power of ten. -/
structure Decimal where
  digits : Nat
  power : Int
  deriving DecidableEq

namespace Decimal

/-- The reals that round to a double, in quarters of a unit of its last place. -/
structure Rounding where
  low : Nat
  middle : Nat
  high : Nat
  closed : Bool
  power : Int

/-- The interval around a double. It is narrower below a power of two, and its
ends belong to it when the significand is even. -/
def Rounding.ofDouble (double : Binary64) : Rounding :=
  let narrow := double.significand == Binary64.binade && 2 * Binary64.binade ≤ double.magnitude
  { low := 4 * double.significand - (if narrow then 1 else 2)
    middle := 4 * double.significand
    high := 4 * double.significand + 2
    closed := double.significand % 2 == 0
    power := double.exponent - 2 }

/-- Whether a point lies between two ends that may belong to the interval. -/
def within (closed : Bool) (low point high : Nat) : Bool :=
  if closed then low ≤ point && point ≤ high else low < point && point < high

/-- The best point of the grid of one power of ten inside the interval. -/
def onGrid? (interval : Rounding) (power : Int) : Option Decimal :=
  let scale := Nat.pow 10 (-power).toNat <<< interval.power.toNat
  let unit := Nat.pow 10 power.toNat <<< (-interval.power).toNat
  let value := interval.middle * scale
  let below := value / unit
  let inside (candidate : Nat) : Bool :=
    within interval.closed (interval.low * scale) (candidate * unit) (interval.high * scale)
  let nearest := Binary64.nearest value unit
  if inside nearest then some ⟨nearest, power⟩
  else if inside below then some ⟨below, power⟩
  else if inside (below + 1) then some ⟨below + 1, power⟩
  else none

/-- The first grid, from a coarse one downwards, with a point in the interval. -/
def search (interval : Rounding) (power : Int) : (grids : Nat) → Decimal
  | 0 => ⟨interval.middle, power⟩
  | grids + 1 =>
    match onGrid? interval power with
    | some decimal => decimal
    | none => search interval (power - 1) grids

/-- A power of ten above every double of the same binary magnitude. -/
def coarsePower (double : Binary64) : Int :=
  ((double.significand.log2 : Int) + double.exponent + 1) * 30103 / 100000 + 1

/-- The shortest decimal of the magnitude of a double other than zero. -/
def shortest (double : Binary64) : Decimal :=
  if double.isZero then ⟨0, 0⟩
  else search (.ofDouble double) (coarsePower double) 24

/-- The digits of a decimal, most significant first. -/
def digitText (decimal : Decimal) : List Char :=
  Nat.toDigits 10 decimal.digits

/-- The power of ten of the first digit. -/
def leadingPower (decimal : Decimal) : Int :=
  decimal.digitText.length - 1 + decimal.power

/-- The digits around the point when a decimal is written without an exponent. -/
def positional (decimal : Decimal) : List Char × List Char :=
  let digits := decimal.digitText
  if 0 ≤ decimal.power then (digits ++ List.replicate decimal.power.toNat '0', [])
  else
    let places := decimal.power.natAbs
    let padded := List.replicate (places + 1 - digits.length) '0' ++ digits
    (padded.take (padded.length - places), padded.drop (padded.length - places))

end Decimal

end Verdict
