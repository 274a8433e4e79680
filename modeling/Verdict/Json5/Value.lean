import Verdict.Json5.Quoted
import Verdict.Settings.Tree

/-!
# Values of a relaxed document

A number of a relaxed document may have a sign of either kind, a point without
digits on one of its sides, or hexadecimal digits, which must fit 32 bits and
have no sign. Integers must fit 64 bits, and reals must be in range unless they
are written as infinite.

The items of a list and the members of a table may have a comma behind the last.
-/

namespace Verdict
namespace Json5

/-- A number in range with the sign that was read before it: a real if it has a
point or an exponent. -/
def decimal? (negative : Bool) (text : List Char) : Option Scalar :=
  let whole := Numeral.digits text
  if Numeral.hasLeadingZero whole then none
  else if whole = text then
    (Scalar.digitsNatural? text).bind (Scalar.ofMagnitude? negative)
  else if text.head?.any fun char => char.isDigit || char == '.' then
    (Real64.ofUnsigned? negative text).bind fun real =>
      match real with
      | .infinite _ => none
      | real => some (.real real)
  else none

/-- The number that a text writes. A word for a number has no plus sign. -/
def number? (text : List Char) : Option Scalar :=
  match text with
  | '0' :: 'x' :: digits | '0' :: 'X' :: digits => do
    let value ← if digits.isEmpty then none else Quote.valueOf? 16 digits
    if value < 0x100000000 then some (.integer value) else none
  | _ =>
    let sign := Numeral.takeMinus text
    if sign.rest = "Infinity".toList then some (.real (.infinite sign.value))
    else if sign.rest = "NaN".toList then some (.real .undefined)
    else
      let sign := Numeral.takeSign text
      decimal? sign.value sign.rest

/-- The setting that a text without quotes and brackets writes. -/
def atom? (text : List Char) : Option SettingTree :=
  if text = "null".toList then some .absent
  else
    match Scalar.booleanOf? (String.ofList text) with
    | some value => some (.scalar (.boolean value))
    | none => (number? text).map .scalar

/-- Whether a character may occur in a word or a number. -/
def isAtom (char : Char) : Bool :=
  char.isAlphanum || char == '.' || char == '+' || char == '-'

/-- A setting without quotes and brackets. -/
def readAtom : Scanner SettingTree
  | [] => none
  | first :: text =>
    let others := takeAll isAtom text
    (atom? (first :: others.value)).map fun tree => others.after.map fun _ => tree

/-- A value in which at most the given number of brackets is open at once. -/
def value : (depth : Nat) → Scanner SettingTree
  | 0 => fun _ => none
  | depth + 1 => fun text =>
    match text with
    | '[' :: text => do
      let items ← Scanner.items takeFiller ']' (value depth) text
      return (items.map .list).behind
    | '\x7b' :: text => do
      let member := Scanner.pair takeFiller ':' readKey (value depth)
      let members ← Scanner.items takeFiller '\x7d' member text
      return (members.map fun members => .table (SettingTree.entriesOf members)).behind
    | '"' :: text => (readString '"' text).map fun chars =>
      (chars.map fun chars => .scalar (.text (String.ofList chars))).behind
    | '\'' :: text => (readString '\'' text).map fun chars =>
      (chars.map fun chars => .scalar (.text (String.ofList chars))).behind
    | text => readAtom text

/-- The entries of a document, which must be a table. No text has more brackets
open at once than it has characters. -/
def read (text : List Char) : Option (List (String × SettingTree)) := do
  let filler := takeFiller text
  let value ← value text.length filler.rest
  match value.value, (takeFiller value.rest).rest with
  | .table entries, [] => some entries
  | _, _ => none

end Json5
end Verdict
