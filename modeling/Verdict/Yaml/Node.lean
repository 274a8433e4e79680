import Verdict.Settings.Tree
import Verdict.Yaml.Property

/-!
# Nodes of an outlined document

A node is an atom, a list or a table. A text without quotes and tag is read as the
first kind of atom of which it is a written form: an integer of 64 bits, a null, a
boolean, a real, and else a text.

The keys of a table are booleans, numbers or texts, and differ from each other.
-/

namespace Verdict
namespace Yaml

/-- A node without parts. A real is kept as it is written. What is not of the kind
that its tag says is invalid. -/
inductive Atom where
  | null
  | invalid
  | boolean (value : Bool)
  | integer (value : Int)
  | real (written : String)
  | text (written : String)
  deriving DecidableEq

/-- A node. -/
inductive Node where
  | atom (value : Atom)
  | list (items : List Node)
  | table (members : List (Atom × Node))

namespace Atom

/-- The integer of 64 bits that digits of a base write, with or without a sign. -/
def basedInteger? (base : Nat) (text : List Char) : Option Int := do
  let sign := Numeral.takeSign text
  let magnitude ← if sign.rest.isEmpty then none else Quote.valueOf? base sign.rest
  let value : Int := if sign.value then -magnitude else magnitude
  if Scalar.fitsSigned value then some value else none

/-- The integer that a text writes. -/
def integerOf? (text : List Char) : Option Int :=
  match text with
  | '0' :: 'x' :: digits => basedInteger? 16 digits
  | '0' :: 'o' :: digits => basedInteger? 8 digits
  | '+' :: digits => basedInteger? 10 digits
  | digits => basedInteger? 10 digits

/-- The words for numbers that are infinite or undefined. -/
def realWords : List String :=
  [".inf", ".Inf", ".INF", "+.inf", "+.Inf", "+.INF", "-.inf", "-.Inf", "-.INF", ".nan", ".NaN",
    ".NAN"]

/-- Whether a text writes a real. -/
def isReal (written : String) : Bool :=
  realWords.contains written ||
    (written.toList.any Char.isDigit && (Real64.ofText? written).isSome)

/-- The atom that a text without quotes and tag writes. -/
def ofPlain (written : String) : Atom :=
  match integerOf? written.toList with
  | some value => .integer value
  | none =>
    if written = "~" ∨ written = "null" then .null
    else
      match Scalar.booleanOf? written with
      | some value => .boolean value
      | none => if isReal written then .real written else .text written

/-- What the tags of the standard kinds begin with. -/
def standardTag : String :=
  "tag:yaml.org,2002:"

/-- The atom of a standard kind that a text without quotes writes. -/
def ofKind (kind written : String) : Atom :=
  if kind = "bool" then ((Scalar.booleanOf? written).map boolean).getD .invalid
  else if kind = "int" then ((Scalar.integerOf? written).map integer).getD .invalid
  else if kind = "float" then if isReal written then .real written else .invalid
  else if kind = "null" then if written = "~" ∨ written = "null" then .null else .invalid
  else .text written

/-- The atom that a text writes, with its tag. -/
def ofScalar (isPlain : Bool) (tag : Option Tag) (written : String) : Atom :=
  match isPlain, tag with
  | false, _ => .text written
  | true, none => ofPlain written
  | true, some tag =>
    if tag.handle = standardTag then ofKind tag.suffix written else .text written

/-- The key that an atom stands for. -/
def key? : Atom → Option String
  | .null | .invalid => none
  | .boolean value => some (if value then "true" else "false")
  | .integer value => some (toString value)
  | .real written => some written
  | .text written => some written

/-- The setting of an atom. A real must be written in digits. -/
def toTree? : Atom → Option SettingTree
  | .null | .invalid => some .absent
  | .boolean value => some (.scalar (.boolean value))
  | .integer value => some (.scalar (.integer value))
  | .real written => (Real64.ofText? written).map fun value => .scalar (.real value)
  | .text written => some (.scalar (.text written))

end Atom

namespace Node

/-- The members that keys and values make, which take turns. What is invalid is no
key, so that what follows it takes its turn. No key may come twice. -/
def members? : (nodes : List Node) → Option (List (Atom × Node))
  | [] | [_] => some []
  | .atom .invalid :: value :: nodes => members? (value :: nodes)
  | .atom key :: value :: nodes => do
    let others ← members? nodes
    if others.any (·.1 = key) then none else some ((key, value) :: others)
  | _ :: _ :: _ => none

mutual

/-- The tree of settings of a node, if all its keys have texts. -/
def toTree? : Node → Option SettingTree
  | .atom value => value.toTree?
  | .list items => (toTrees? items).map .list
  | .table members => (toPairs? members).map fun pairs => .table (SettingTree.entriesOf pairs)

/-- The trees of settings of nodes. -/
def toTrees? : List Node → Option (List SettingTree)
  | [] => some []
  | node :: nodes => do
    let tree ← toTree? node
    return tree :: (← toTrees? nodes)

/-- The keys and settings of the members of a table. -/
def toPairs? : List (Atom × Node) → Option (List (String × SettingTree))
  | [] => some []
  | (key, node) :: members => do
    let key ← key.key?
    let tree ← toTree? node
    return (key, tree) :: (← toPairs? members)

end

end Node

end Yaml
end Verdict
