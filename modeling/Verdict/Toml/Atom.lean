import Verdict.Json.Quote
import Verdict.Settings.Scalar
import Verdict.Toml.Moment

/-!
# Scalars without quotes

A scalar that is not quoted is a boolean, an integer in base ten, sixteen, eight
or two, a real, or a moment, which is kept as its text. Between two digits of a
number an underscore may stand.

Integers must fit 64 bits, and reals must be in range unless they are written as
infinite.
-/

namespace Verdict
namespace Toml

/-- Digits in which single underscores may stand between two digits. -/
def plainDigits? (isDigit : Char → Bool) (text : List Char) : Option (List Char) :=
  if (Text.splitAt '_' text).all fun part => !part.isEmpty && part.all isDigit then
    some (text.filter (· != '_'))
  else none

/-- An integer of another base than ten. -/
def basedInteger? (base : Nat) (digits : List Char) : Option Scalar := do
  let plain ← plainDigits? (fun char => (Quote.digitValue? base char).isSome) digits
  Scalar.ofMagnitude? false (← Quote.valueOf? base plain)

/-- A power of ten behind its letter. -/
def power? (text : List Char) : Option Int := do
  let sign := Numeral.takeSign text
  let digits ← plainDigits? Char.isDigit sign.rest
  let value : Int := Numeral.digitsValue digits
  return if sign.value then -value else value

/-- Whether a character ends the digits before it. -/
def isMark (char : Char) : Bool :=
  char == '.' || char == 'e' || char == 'E'

/-- A decimal number without its sign. -/
def decimal? (negative : Bool) (text : List Char) : Option Scalar := do
  let whole ← plainDigits? Char.isDigit (text.takeWhile (!isMark ·))
  if Numeral.hasLeadingZero whole then none
  else
    match text.dropWhile (!isMark ·) with
    | [] => Scalar.ofMagnitude? negative (Numeral.digitsValue whole)
    | '.' :: rest => do
      let fraction ← plainDigits? Char.isDigit (rest.takeWhile (!isMark ·))
      let power ←
        match rest.dropWhile (!isMark ·) with
        | [] => pure 0
        | '.' :: _ => none
        | _ :: rest => power? rest
      Scalar.ofDecimal? negative (whole ++ fraction) (power - fraction.length)
    | _ :: rest => do
      Scalar.ofDecimal? negative whole (← power? rest)

/-- The number that a text with or without a sign writes. -/
def number? (text : List Char) : Option Scalar :=
  let sign := Numeral.takeSign text
  if sign.rest = "inf".toList then some (.real (.infinite sign.value))
  else if sign.rest = "nan".toList then some (.real .undefined)
  else decimal? sign.value sign.rest

/-- The scalar that a text without quotes writes. -/
def atom? (text : List Char) : Option Scalar :=
  match text with
  | '0' :: 'x' :: digits => basedInteger? 16 digits
  | '0' :: 'o' :: digits => basedInteger? 8 digits
  | '0' :: 'b' :: digits => basedInteger? 2 digits
  | _ =>
    match Scalar.booleanOf? (String.ofList text), Moment.text? text with
    | some value, _ => some (.boolean value)
    | none, some moment => some (.text (String.ofList moment))
    | none, none => number? text

end Toml
end Verdict
