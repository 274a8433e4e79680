import Verdict.Json

/-!
# Writing JSON

Compact text has no blanks. Indented text puts each item and each member on a
line of its own, two blanks deeper than its bracket, and keeps empty arrays and
objects on one line.

Members are written in the order in which the value holds them.
-/

namespace Verdict
namespace Json

/-- A character of a string in its written form. -/
def escapeChar (char : Char) : List Char :=
  match char with
  | '"' => ['\\', '"']
  | '\\' => ['\\', '\\']
  | '\n' => ['\\', 'n']
  | '\r' => ['\\', 'r']
  | '\t' => ['\\', 't']
  | '\x08' => ['\\', 'b']
  | '\x0c' => ['\\', 'f']
  | _ =>
    if char.toNat < 0x20 then
      ['\\', 'u', '0', '0', Nat.digitChar (char.toNat / 16), Nat.digitChar (char.toNat % 16)]
    else [char]

/-- A string between quotes. -/
def quoted (text : String) : String :=
  String.ofList ('"' :: text.toList.flatMap escapeChar ++ ['"'])

/-- How the parts of arrays and objects are set on lines. -/
inductive Layout where
  | compact
  | indented (depth : Nat)
  deriving DecidableEq

namespace Layout

/-- The layout inside a bracket. -/
def deeper : Layout → Layout
  | .compact => .compact
  | .indented depth => .indented (depth + 1)

/-- What separates a bracket or a comma from the part after it. -/
def lineBreak : Layout → String
  | .compact => ""
  | .indented depth => "\n" ++ String.ofList (List.replicate (2 * depth) ' ')

/-- What separates a key from its value. -/
def colon : Layout → String
  | .compact => ":"
  | .indented _ => ": "

/-- Parts between brackets. -/
def enclose (layout : Layout) (opening closing : String) : List String → String
  | [] => opening ++ closing
  | part :: parts =>
    opening ++ layout.deeper.lineBreak ++
      String.intercalate ("," ++ layout.deeper.lineBreak) (part :: parts) ++
      layout.lineBreak ++ closing

end Layout

mutual

/-- The text of a value in a layout. -/
def write (layout : Layout) : Json → String
  | .null => "null"
  | .boolean value => if value then "true" else "false"
  | .number value => value.text
  | .string text => quoted text
  | .array items => layout.enclose "[" "]" (writeItems layout.deeper items)
  | .object members => layout.enclose "\x7b" "\x7d" (writeMembers layout.deeper members)

/-- The texts of the items of an array. -/
def writeItems (layout : Layout) : List Json → List String
  | [] => []
  | item :: rest => write layout item :: writeItems layout rest

/-- The texts of the members of an object. -/
def writeMembers (layout : Layout) : List (String × Json) → List String
  | [] => []
  | (key, value) :: rest =>
    (quoted key ++ layout.colon ++ write layout value) :: writeMembers layout rest

end

/-- The text of a value without blanks. -/
def compact (value : Json) : String :=
  value.write .compact

/-- The text of a value on indented lines. -/
def pretty (value : Json) : String :=
  value.write (.indented 0)

end Json
end Verdict
