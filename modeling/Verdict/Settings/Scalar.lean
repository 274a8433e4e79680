import Verdict.Json.Numeral

/-!
# Scalar settings

A setting is a boolean, an integer, a real or a text. Where a setting of one
kind is wanted and one of another kind is given, it is converted, if there is a
conversion.

The text of an environment variable is read as the first kind of which it is a
written form: a boolean, an integer of 64 bits, a real, and else a text.
-/

namespace Verdict

/-- A double that need not be finite. -/
inductive Real64 where
  | finite (value : Binary64)
  | infinite (negative : Bool)
  | undefined
  deriving DecidableEq

/-- A setting without parts. -/
inductive Scalar where
  | boolean (value : Bool)
  | integer (value : Int)
  | real (value : Real64)
  | text (value : String)
  deriving DecidableEq

namespace Real64

/-- The double nearest to digits scaled by a power of ten. -/
def ofDecimal (negative : Bool) (digits : List Char) (power : Int) : Real64 :=
  let value := Numeral.digitsValue digits
  let leading : Int := digits.length + power
  let nearest :=
    if value = 0 ∨ leading < -400 then some (Binary64.zero negative)
    else if (Nat.toDigits 10 value).length + power > 400 then none
    else Binary64.ofQuotient? negative (value * Nat.pow 10 power.toNat) (Nat.pow 10 (-power).toNat)
  match nearest with
  | some double => .finite double
  | none => .infinite negative

/-- The digits of a real without an exponent, and without a point if it is whole. -/
def text : Real64 → String
  | .finite double =>
    let (whole, fraction) := (Decimal.shortest double).positional
    Number.signText double.negative ++ String.ofList whole ++
      (if fraction.isEmpty then "" else "." ++ String.ofList fraction)
  | .infinite negative => Number.signText negative ++ "inf"
  | .undefined => "NaN"

/-- The largest natural of 64 bits. -/
def largestNatural : Nat :=
  0xffffffffffffffff

/-- The nearest natural, with halves rounded up and clipped to 64 bits. -/
def toNatural : Real64 → Nat
  | .finite double =>
    if double.negative then 0
    else
      let doubled := (2 * double.significand <<< double.exponent.toNat) >>>
        (-double.exponent).toNat
      min ((doubled + 1) / 2) largestNatural
  | .infinite negative => if negative then 0 else largestNatural
  | .undefined => 0

/-- The real that a text without its sign writes, if it writes one. -/
def ofUnsigned? (negative : Bool) (text : List Char) : Option Real64 :=
  let word := text.map Char.toLower
  if word = "inf".toList ∨ word = "infinity".toList then some (.infinite negative)
  else if word = "nan".toList then some .undefined
  else
    let whole := Numeral.digits text
    let (fraction, afterFraction) :=
      match Numeral.afterDigits text with
      | '.' :: rest => (Numeral.digits rest, Numeral.afterDigits rest)
      | rest => ([], rest)
    if whole.isEmpty && fraction.isEmpty then none
    else
      match Numeral.takePower .invalidNumber afterFraction with
      | .ok ⟨power, [], _⟩ =>
        some (ofDecimal negative (whole ++ fraction) (power.getD 0 - fraction.length))
      | _ => none

/-- The real that a text writes, if it writes one. -/
def ofText? (text : String) : Option Real64 :=
  let sign := Numeral.takeSign text.toList
  ofUnsigned? sign.value sign.rest

end Real64

namespace Scalar

/-- The natural that digits alone write. -/
def digitsNatural? (text : List Char) : Option Nat :=
  if !text.isEmpty && text.all Char.isDigit then some (Numeral.digitsValue text) else none

/-- Whether an integer fits 64 bits with a sign. -/
def fitsSigned (value : Int) : Bool :=
  -0x8000000000000000 ≤ value && value < 0x8000000000000000

/-- The integer of 64 bits with the given sign and magnitude. -/
def ofMagnitude? (negative : Bool) (magnitude : Nat) : Option Scalar :=
  let value : Int := if negative then -magnitude else magnitude
  if fitsSigned value then some (.integer value) else none

/-- The double nearest to digits scaled by a power of ten, if it is in range. -/
def ofDecimal? (negative : Bool) (digits : List Char) (power : Int) : Option Scalar :=
  match Real64.ofDecimal negative digits power with
  | .infinite _ => none
  | value => some (.real value)

/-- The integer of 64 bits that a text writes. -/
def integerOf? (text : String) : Option Int := do
  let sign := Numeral.takeSign text.toList
  let magnitude ← digitsNatural? sign.rest
  let value : Int := if sign.value then -magnitude else magnitude
  if fitsSigned value then some value else none

/-- The scalar of a number, which may be an integer of 64 bits without a sign. -/
def ofNumber : Number → Scalar
  | .integer value _ => .integer value
  | .double value => .real (.finite value)

/-- The natural of 64 bits that a text writes, with a plus sign or without. -/
def naturalOf? (text : String) : Option Nat := do
  let digits :=
    match text.toList with
    | '+' :: digits => digits
    | digits => digits
  let value ← digitsNatural? digits
  if value ≤ Real64.largestNatural then some value else none

/-- The boolean of a word. -/
def booleanOf? (word : String) : Option Bool :=
  if word = "true" then some true else if word = "false" then some false else none

/-- The scalar that a text is the written form of. -/
def guess (text : String) : Scalar :=
  match booleanOf? text.toLower with
  | some value => .boolean value
  | none =>
    match integerOf? text with
    | some value => .integer value
    | none =>
      match Real64.ofText? text with
      | some value => .real value
      | none => .text text

/-- A scalar where a text is wanted. -/
def toText : Scalar → String
  | .boolean value => if value then "true" else "false"
  | .integer value => toString value
  | .real value => value.text
  | .text value => value

/-- The words that stand for a boolean. -/
def switchOf? (word : String) : Option Bool :=
  if ["true", "on", "yes"].contains word then some true
  else if ["false", "off", "no"].contains word then some false
  else none

/-- A scalar where a boolean is wanted. -/
def toBoolean? : Scalar → Option Bool
  | .boolean value => some value
  | .integer value => some (value != 0)
  | .real (.finite value) => some !value.isZero
  | .real _ => some true
  | .text value =>
    let word := value.toLower
    if word = "1" then some true else if word = "0" then some false else switchOf? word

/-- A scalar where a natural is wanted. -/
def toNatural? : Scalar → Option Nat
  | .boolean value => some value.toNat
  | .integer value => if 0 ≤ value then some value.toNat else none
  | .real value => some value.toNatural
  | .text value =>
    match switchOf? value.toLower with
    | some switch => some switch.toNat
    | none => naturalOf? value

end Scalar

end Verdict
