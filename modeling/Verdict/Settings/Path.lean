import Verdict.Json.Numeral
import Verdict.Text.Blank
import Verdict.Text.Split

/-!
# Paths of settings

A path leads through tables and lists to a setting. It is written with points
between the keys; behind a key, positions in lists may follow in brackets.

A text that does not write a path is a key of its own.
-/

namespace Verdict

/-- A step from a table to what a key has in it, or from a list to an item. -/
inductive SettingStep where
  | key (name : String)
  | position (position : Int)
  deriving DecidableEq

/-- A path from the table of all settings, which begins with a key. -/
structure SettingPath where
  first : String
  others : List SettingStep := []
  deriving DecidableEq

namespace SettingPath

/-- Whether a character may occur in a key of a path. -/
def isNamed (char : Char) : Bool :=
  char.isAlphanum || char == '_' || char == '-'

/-- The position that digits with or without a minus sign write, if 64 bits hold it. -/
def positionOf? (text : List Char) : Option Int :=
  let sign := Numeral.takeMinus text
  let magnitude : Int := Numeral.digitsValue sign.rest
  let value := if sign.value then -magnitude else magnitude
  if !sign.rest.isEmpty && sign.rest.all Char.isDigit &&
      -0x8000000000000000 ≤ value && value < 0x8000000000000000 then some value
  else none

/-- The position in a bracket, of which the text holds all but the opening character. -/
def bracketOf? (text : List Char) : Option Int :=
  match text.reverse with
  | ']' :: inside =>
    let atEnd := inside.dropWhile Text.isLineBlank
    positionOf? (atEnd.reverse.dropWhile Text.isLineBlank)
  | _ => none

/-- The steps that a text without points writes: a key, and positions in brackets. -/
def stepsOf? (text : List Char) : Option (List SettingStep) :=
  match Text.splitAt '[' text with
  | name :: brackets =>
    if !name.isEmpty && name.all isNamed then do
      let positions ← brackets.mapM bracketOf?
      return .key (String.ofList name) :: positions.map .position
    else none
  | [] => none

/-- The path that a text writes, if it writes one. -/
def ofText? (text : String) : Option SettingPath := do
  let steps ← (Text.splitAt '.' text.toList).mapM stepsOf?
  match steps.flatten with
  | .key first :: others => some { first, others }
  | _ => none

/-- The path that a text writes, or the text as a key. -/
def ofText (text : String) : SettingPath :=
  (ofText? text).getD { first := text }

end SettingPath

end Verdict
