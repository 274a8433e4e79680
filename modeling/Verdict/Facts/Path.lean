import Verdict.Json
import Verdict.Text.Split

/-!
# Paths

A path leads from a value to one of its parts. It is written as segments between
dots, after any number of dollar signs and dots. A segment is the key of a
member or the index of an item.

An index is decimal digits, after a plus sign or none; of an object, every
segment is a key.
-/

namespace Verdict
namespace Path

/-- A path without the dollar signs and dots at its front. -/
def trim (path : String) : List Char :=
  path.toList.dropWhile fun char => char == '$' || char == '.'

/-- The segments of a path; a path of dollar signs and dots alone has none. -/
def segments (path : String) : List String :=
  match trim path with
  | [] => []
  | chars => (Text.splitAt '.' chars).map String.ofList

/-- The last of the texts between the dots of a path. -/
def lastSegment (path : String) : String :=
  (Text.split '.' path).getLast?.getD ""

/-- The natural of one or more decimal digits. -/
def naturalOf? (digits : List Char) : Option Nat :=
  if digits.isEmpty then none
  else digits.foldlM (fun value digit =>
    if digit.isDigit then some (10 * value + (digit.toNat - '0'.toNat)) else none) 0

/-- The index that a segment denotes. -/
def indexOf? (segment : String) : Option Nat :=
  match segment.toList with
  | '+' :: digits => naturalOf? digits
  | digits => naturalOf? digits

/-- The part of a value to which one segment leads. -/
def step? (value : Json) (segment : String) : Option Json :=
  match value with
  | .object members => members.lookup segment
  | .array items => (indexOf? segment).bind fun index => items[index]?
  | _ => none

/-- The part of a value to which segments lead. -/
def follow? (value : Json) (segments : List String) : Option Json :=
  segments.foldlM step? value

@[simp] theorem follow?_nil (value : Json) : follow? value [] = some value :=
  rfl

@[simp] theorem follow?_cons
    (value : Json)
    (segment : String)
    (segments : List String) :
    follow? value (segment :: segments) =
      (step? value segment).bind fun part => follow? part segments :=
  rfl

end Path
end Verdict
