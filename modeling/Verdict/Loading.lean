import Verdict.Facts
import Verdict.FileTree
import Verdict.Rule.Definition

/-!
# Loading

Rules are loaded from a text that holds one definition or an array of them, from
a file with such a text, or from all files of a directory whose names end in
`.json`, in the order of their names. Facts are loaded from a file with one
object.

A text is decoded as a whole before any of its definitions is converted.
-/

namespace Verdict
namespace Loading

/-- Whether the first visible character of a text opens an array. -/
def isArrayText (text : String) : Bool :=
  (text.toList.dropWhile Text.isBlank).head? == some '['

/-- The definitions in a text. -/
def definitions (text : String) : Except DecodeFault (List RuleDefinition) :=
  if isArrayText text then Decoder.ofText RuleDefinition.listDecoder text
  else (Decoder.ofText RuleDefinition.decoder text).map fun definition => [definition]

/-- The rules in a text. -/
def parse (text : String) : Except Error (List Rule) := do
  let definitions ← (definitions text).mapError .json
  definitions.mapM RuleDefinition.toRule

/-- The text at the end of a path. -/
def readText (path : String) (found : Except FileFault FileTree) : Except Error String :=
  (found.bind FileTree.readText).mapError (.file path)

/-- The rules in the file at the end of a path. -/
def loadFile (path : String) (found : Except FileFault FileTree) : Except Error (List Rule) := do
  let text ← readText path found
  parse text

/-- Whether a file of this name is loaded with its directory: something must
stand before the ending. -/
def isRuleFileName (name : String) : Bool :=
  name.endsWith ".json" && name != ".json"

/-- The path of an entry of a directory. -/
def entryPath (directory name : String) : String :=
  if directory.endsWith "/" then directory ++ name else directory ++ "/" ++ name

/-- The files of a directory that are loaded with it, in the order of their names. -/
def ruleFiles (entries : List (String × FileTree)) : List (String × FileTree) :=
  (entries.filter fun entry =>
    match entry.2 with
    | .file _ => isRuleFileName entry.1
    | .directory _ => false).mergeSort fun left right => left.1 ≤ right.1

/-- The rules in the file or the directory at the end of a path. -/
def loadPath (path : String) (found : Except FileFault FileTree) : Except Error (List Rule) :=
  match found with
  | .ok (.directory entries) => do
    let loaded ← (ruleFiles entries).mapM fun entry =>
      loadFile (entryPath path entry.1) (.ok entry.2)
    return loaded.flatten
  | other => loadFile path other

/-- The facts in the file at the end of a path. -/
def loadFacts (path : String) (found : Except FileFault FileTree) : Except Error Facts := do
  let text ← readText path found
  let value ← (Decoder.ofText Decoder.value text).mapError .json
  Facts.ofJson value

end Loading
end Verdict
