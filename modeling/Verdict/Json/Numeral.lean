import Verdict.Json.Reader

/-!
# Numerals

A numeral is a number as it is written: a sign, digits, a fraction and a power
of ten. It denotes an integer if it has neither fraction nor exponent and fits
64 bits, and the double that its digits scale to otherwise.

Negative zero has no integer and denotes a double.
-/

namespace Verdict

/-- The parts of a number as they are written. -/
structure Numeral where
  negative : Bool
  whole : List Char
  fraction : List Char
  power : Option Int

namespace Numeral

/-- The value of a digit. -/
def digitValue (digit : Char) : Nat :=
  digit.toNat - '0'.toNat

/-- The natural that digits denote. -/
def digitsValue (digits : List Char) : Nat :=
  digits.foldl (fun value digit => 10 * value + digitValue digit) 0

/-- Whether digits begin with a zero that could be left out. -/
def hasLeadingZero (digits : List Char) : Bool :=
  match digits with
  | '0' :: _ :: _ => true
  | _ => false

/-- Appends digits to a significand as long as it fits 64 bits, and counts them. -/
def extend (significand : Nat) : List Char → Nat × Nat
  | [] => (significand, 0)
  | digit :: digits =>
    let longer := 10 * significand + digitValue digit
    if longer < 0x10000000000000000 then
      let (final, taken) := extend longer digits
      (final, taken + 1)
    else (significand, 0)

/-- A numeral as a double. Digits that no longer fit the significand count only
for the scale, if they stand before the point. -/
def toDouble? (numeral : Numeral) : Option Binary64 :=
  let (whole, wholeTaken) := extend 0 numeral.whole
  let (significand, fractionTaken) := extend whole numeral.fraction
  let dropped : Int := numeral.whole.length - wholeTaken
  Binary64.ofDecimal? numeral.negative significand
    (dropped - fractionTaken + numeral.power.getD 0)

/-- Whether a numeral has neither a fraction nor an exponent. -/
def isWhole (numeral : Numeral) : Bool :=
  numeral.fraction.isEmpty && numeral.power.isNone

/-- A numeral as an integer of 64 bits. -/
def toInteger? (numeral : Numeral) : Option Number :=
  let value := digitsValue numeral.whole
  if !numeral.isWhole || (numeral.negative && value == 0) then none
  else Number.ofInt? (if numeral.negative then -value else value)

/-- The number that a numeral denotes, unless it is too large. -/
def toNumber? (numeral : Numeral) : Option Number :=
  numeral.toInteger?.or (numeral.toDouble?.map .double)

/-- The digits at the front of a text. -/
def digits (text : List Char) : List Char :=
  text.takeWhile Char.isDigit

/-- The text after the digits at its front. -/
def afterDigits (text : List Char) : List Char :=
  text.dropWhile Char.isDigit

theorem length_afterDigits_le (text : List Char) :
    (afterDigits text).length ≤ text.length :=
  (List.dropWhile_suffix Char.isDigit).length_le

/-- At least one digit, and all that follow it. -/
def readDigits (atEnd : TextFault) : Reader (List Char)
  | [] => atEnd.raise
  | first :: text =>
    if first.isDigit then
      .ok ⟨first :: digits text, afterDigits text, Nat.lt_succ_of_le (length_afterDigits_le text)⟩
    else TextFault.invalidNumber.raise

/-- The digits before a point: a lone zero, or digits that do not begin with one. -/
def readWhole (atEnd : TextFault) : Reader (List Char)
  | '0' :: text =>
    if (digits text).isEmpty then .ok (.one ['0'])
    else TextFault.invalidNumber.raise
  | text => readDigits atEnd text

/-- A minus sign that may stand at the front of a text. -/
def takeMinus : (text : List Char) → Taken Bool text
  | '-' :: _ => (Taken.nothing true).behind
  | _ => .nothing false

/-- A sign that may stand at the front of a text. -/
def takeSign : (text : List Char) → Taken Bool text
  | '+' :: _ => (Taken.nothing false).behind
  | text => takeMinus text

/-- A point with digits, if a point stands at the front of a text. -/
def takeFraction (atEnd : TextFault) :
    (text : List Char) → Except DecodeFault (Taken (List Char) text)
  | '.' :: text => do
    let fraction ← readDigits atEnd text
    return fraction.toTaken.behind
  | _ => .ok (.nothing [])

/-- A power of ten, if its letter stands at the front of a text. -/
def takePower (atEnd : TextFault) :
    (text : List Char) → Except DecodeFault (Taken (Option Int) text)
  | [] => .ok (.nothing none)
  | char :: text =>
    if char = 'e' ∨ char = 'E' then do
      let sign := takeSign text
      let power ← readDigits atEnd sign.rest
      let value : Int := digitsValue power.value
      let signed := if sign.value then -value else value
      return (sign.followedBy (power.toTaken.map fun _ => some signed)).behind
    else .ok (.nothing none)

/-- A numeral. A text that ends in the middle of it has the given fault. -/
def read (atEnd : TextFault) : Reader Numeral := fun text => do
  let sign := takeMinus text
  let whole ← readWhole atEnd sign.rest
  let fraction ← takeFraction atEnd whole.rest
  let power ← takePower atEnd fraction.rest
  let numeral : Numeral := ⟨sign.value, whole.value, fraction.value, power.value⟩
  let rest := fraction.followedBy (power.map fun _ => numeral)
  return (whole.followedByTaken rest).widen sign.within

/-- The number that a numeral denotes, which must be in range. -/
def readNumber : Reader Number :=
  (read (.unfinished .value)).tryMap fun numeral =>
    match numeral.toNumber? with
    | some number => .ok number
    | none => TextFault.numberOutOfRange.raise

end Numeral
end Verdict
