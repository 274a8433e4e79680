import Verdict.Json.Numeral
import Verdict.Text.Split

/-!
# Moments

A moment is written as a day, as a time of day, or as both with a letter or a
blank between them. A moment with both may have an offset from universal time.

Days are those of the calendar, and a time may leave out its seconds. A moment
is known by the one text in which it is written without any choice.
-/

namespace Verdict
namespace Toml
namespace Moment

/-- The natural that a given number of digits writes. -/
def field? (count : Nat) (text : List Char) : Option Nat :=
  if text.length = count ∧ text.all Char.isDigit then some (Numeral.digitsValue text) else none

/-- Whether a year has a day more than others. -/
def isLeap (year : Nat) : Bool :=
  (year % 4 == 0 && year % 100 != 0) || year % 400 == 0

/-- The number of days in a month; there is none in what is no month. -/
def daysIn (year month : Nat) : Nat :=
  if month = 2 then if isLeap year then 29 else 28
  else if [4, 6, 9, 11].contains month then 30
  else if 1 ≤ month ∧ month ≤ 12 then 31
  else 0

/-- Whether a text writes a day: year, month and day of the month. -/
def isDay (text : List Char) : Bool :=
  match Text.splitAt '-' text with
  | [year, month, day] =>
    match field? 4 year, field? 2 month, field? 2 day with
    | some year, some month, some day => 1 ≤ day && day ≤ daysIn year month
    | _, _, _ => false
  | _ => false

/-- The digits of a part of a second, of which nine count, without zeros at their end. -/
def fractionText (digits : List Char) : List Char :=
  match ((digits.take 9).reverse.dropWhile (· == '0')).reverse with
  | [] => ['0']
  | digits => digits

/-- The seconds of a time as they are written without any choice. -/
def seconds? (text : List Char) : Option (List Char) := do
  let fits (whole : List Char) : Bool := (field? 2 whole).any (· ≤ 60)
  match Text.splitAt '.' text with
  | [whole] => if fits whole then some whole else none
  | [whole, fraction] =>
    if fits whole && !fraction.isEmpty && fraction.all Char.isDigit then
      some (whole ++ '.' :: fractionText fraction)
    else none
  | _ => none

/-- Whether two texts write the hour and the minute of a time. -/
def isClock (hour minute : List Char) : Bool :=
  (field? 2 hour).any (· < 24) && (field? 2 minute).any (· < 60)

/-- A time of day as it is written without any choice. -/
def time? (text : List Char) : Option (List Char) :=
  match Text.splitAt ':' text with
  | [hour, minute] => if isClock hour minute then some (hour ++ ':' :: minute) else none
  | [hour, minute, second] =>
    if isClock hour minute then
      (seconds? second).map fun second => hour ++ ':' :: minute ++ ':' :: second
    else none
  | _ => none

/-- An offset as it is written without any choice: no offset has one sign only. -/
def offset? (text : List Char) : Option (List Char) :=
  match text with
  | ['Z'] => some ['Z']
  | ['z'] => some ['Z']
  | sign :: rest =>
    match Text.splitAt ':' rest with
    | [hour, minute] =>
      if (sign = '+' ∨ sign = '-') ∧ isClock hour minute then
        let isNone := Numeral.digitsValue (hour ++ minute) = 0
        some ((if isNone then '+' else sign) :: hour ++ ':' :: minute)
      else none
    | _ => none
  | [] => none

/-- Whether an offset begins with a character. -/
def isOffsetStart (char : Char) : Bool :=
  ['Z', 'z', '+', '-'].contains char

/-- A time of day, perhaps with an offset, as it is written without any choice. -/
def timeWithOffset? (text : List Char) : Option (List Char) := do
  let time ← time? (text.takeWhile (!isOffsetStart ·))
  match text.dropWhile (!isOffsetStart ·) with
  | [] => return time
  | offset => return time ++ (← offset? offset)

/-- A moment as it is written without any choice. -/
def text? (text : List Char) : Option (List Char) :=
  let day := text.take 10
  if isDay day then
    match text.drop 10 with
    | [] => some day
    | mark :: time =>
      if ['T', 't', ' '].contains mark then
        (timeWithOffset? time).map fun time => day ++ 'T' :: time
      else none
  else time? text

end Moment
end Toml
end Verdict
