import Verdict.Json.Quote
import Verdict.Settings.Scalar

/-!
# Numbers of a record document

A number is an integer in base ten, sixteen, eight or two, or a real. It may name
its type at its end, and may have underscores behind its digits.

An integer that has no type and fits none is taken as a real.
-/

namespace Verdict
namespace Ron

/-- The types of integers by their names, with their least and greatest values. -/
def integerTypes : List (List Char × Int × Int) :=
  [(['i', '8'], -0x80, 0x7f),
   (['i', '1', '6'], -0x8000, 0x7fff),
   (['i', '3', '2'], -0x80000000, 0x7fffffff),
   (['i', '6', '4'], -0x8000000000000000, 0x7fffffffffffffff),
   (['u', '8'], 0, 0xff),
   (['u', '1', '6'], 0, 0xffff),
   (['u', '3', '2'], 0, 0xffffffff),
   (['u', '6', '4'], 0, 0xffffffffffffffff)]

/-- The bounds of the integers of a type, or of all integers if no type is named. -/
def bounds? (name : List Char) : Option (Int × Int) :=
  if name.isEmpty then some (-0x8000000000000000, 0xffffffffffffffff)
  else integerTypes.lookup name

/-- Whether a character may occur among the digits of an integer. -/
def isDigit (char : Char) : Bool :=
  (Quote.hexValue? char).isSome || char == '_'

/-- An integer in a base, without its sign, with the type at its end. -/
def basedInteger? (negative : Bool) (base : Nat) (text : List Char) : Option Scalar := do
  let digits := text.takeWhile isDigit
  let (least, greatest) ← bounds? (text.dropWhile isDigit)
  if digits.isEmpty || digits.head? == some '_' then none
  else
    let magnitude ← Quote.valueOf? base (digits.filter (· != '_'))
    let value : Int := if negative then -magnitude else magnitude
    if least ≤ value ∧ value ≤ greatest then some (.integer value) else none

/-- An integer without its sign. -/
def integer? (negative : Bool) (text : List Char) : Option Scalar :=
  match text with
  | '0' :: 'x' :: digits => basedInteger? negative 16 digits
  | '0' :: 'o' :: digits => basedInteger? negative 8 digits
  | '0' :: 'b' :: digits => basedInteger? negative 2 digits
  | digits => basedInteger? negative 10 digits

/-- The characters of a real without its underscores, each of which must follow a
digit or the mark of an exponent. -/
def plainReal? (isAfterDigit : Bool) : List Char → Option (List Char)
  | [] => some []
  | char :: text =>
    if char = '_' then if isAfterDigit then plainReal? isAfterDigit text else none
    else if char.isDigit ∨ char = 'e' ∨ char = 'E' then (plainReal? true text).map (char :: ·)
    else if char = '.' then (plainReal? false text).map (char :: ·)
    else if char = '+' ∨ char = '-' then (plainReal? isAfterDigit text).map (char :: ·)
    else none

/-- A text without the type of reals at its end, if it names one. -/
def dropRealType (text : List Char) : List Char :=
  match text.reverse with
  | '4' :: '6' :: 'f' :: rest | '2' :: '3' :: 'f' :: rest => rest.reverse
  | _ => text

/-- A real without its sign. -/
def real? (negative : Bool) (text : List Char) : Option Scalar :=
  let text := dropRealType text
  if text = "inf".toList then some (.real (.infinite negative))
  else if text = "NaN".toList then some (.real .undefined)
  else (plainReal? false text).bind fun plain =>
    (Real64.ofUnsigned? negative plain).map .real

/-- The number that a text writes. -/
def number? (text : List Char) : Option Scalar :=
  let sign := Numeral.takeSign text
  (integer? sign.value sign.rest).or (real? sign.value sign.rest)

end Ron
end Verdict
