import Verdict.Settings.Tree
import Verdict.Text.Lossy

/-!
# Environment variables

A variable names a setting by its path, with two underscores between the parts,
after a common beginning. Case does not count in the names of variables.

Variables that name no setting are passed over.
-/

namespace Verdict

/-- A variable of the environment: its name and its text. -/
abbrev Variable :=
  String × String

namespace Variable

/-- What the names of all variables for settings begin with, in lower case. -/
def start : String :=
  "rules_"

/-- A name as a path, with a point for two underscores. -/
def pathText : List Char → List Char
  | [] => []
  | '_' :: '_' :: rest => '.' :: pathText rest
  | char :: rest => char :: pathText rest

/-- A character in lower case, as far as that may occur in a path: the letters of
the base alphabet, and the sign of the kelvin, which is another capital K. -/
def lowerChar (char : Char) : Char :=
  if char = '\u212a' then 'k' else char.toLower

/-- The path of the setting that a name stands for, if it stands for one. -/
def pathOf? (name : String) : Option SettingPath :=
  let lower := name.toList.map lowerChar
  if start.toList.isPrefixOf lower then
    some (.ofText (String.ofList (pathText (lower.drop start.length))))
  else none

/-- The settings that variables give. -/
def layer (assigned : List Variable) : Layer :=
  assigned.filterMap fun named =>
    (pathOf? named.1).map fun path => (path, .scalar (.guess named.2))

/-- The text of the variable of exactly this name, or a default if it is not set. -/
def textOf (assigned : List Variable) (name default : String) : String :=
  (assigned.lookup name).getD default

/-- The variable that is written as its name, an equals sign and its text. -/
def ofText? (text : List Char) : Option Variable :=
  match text.dropWhile (· != '=') with
  | '=' :: rest => some (String.ofList (text.takeWhile (· != '=')), String.ofList rest)
  | _ => none

/-- The variables in a block of the system, each closed by a zero byte. -/
def ofBlock (block : ByteArray) : List Variable :=
  (Text.splitAt '\x00' (Text.decodeLossy block.toList)).filterMap ofText?

end Variable
end Verdict
