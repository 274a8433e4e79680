import Verdict.FileTree
import Verdict.Ini
import Verdict.Json.Decoder
import Verdict.Json5.Value
import Verdict.Ron.Value
import Verdict.Text.Lossy
import Verdict.Toml.Document
import Verdict.Yaml.Document

/-!
# Documents of settings

A document of settings is a file of one of six forms. Each key of its outermost
table is read as the path of a setting; the keys inside are taken as they are.

A document is looked up at a path that ends as the first form does. If no file is
there, a file whose name has one more ending behind it stands in.
-/

namespace Verdict

/-- The forms of documents. -/
inductive DocumentForm where
  | toml
  | json
  | yaml
  | ini
  | ron
  | json5
  deriving DecidableEq

/-- A document: its form and its text. -/
structure Document where
  form : DocumentForm
  text : List Char

namespace SettingTree

mutual

/-- The tree of settings of a JSON value. -/
def ofJson : Json → SettingTree
  | .null => .absent
  | .boolean value => .scalar (.boolean value)
  | .number number => .scalar (.ofNumber number)
  | .string text => .scalar (.text text)
  | .array items => .list (ofItems items)
  | .object members => .table (ofMembers members)

/-- The trees of settings of JSON values. -/
def ofItems : List Json → List SettingTree
  | [] => []
  | item :: items => ofJson item :: ofItems items

/-- The entries of the members of a JSON object. -/
def ofMembers : List (String × Json) → List (String × SettingTree)
  | [] => []
  | (key, value) :: members => (key, ofJson value) :: ofMembers members

end

end SettingTree

namespace DocumentForm

/-- How the names of documents end, and their forms, in the order in which files
are looked for. -/
def endings : List (String × DocumentForm) :=
  [(".toml", .toml), (".json", .json), (".yaml", .yaml), (".yml", .yaml), (".ini", .ini),
    (".ron", .ron), (".json5", .json5)]

/-- The entries of the outermost table of a text in some form, if it is well formed. -/
def read (form : DocumentForm) (text : List Char) : Option (List (String × SettingTree)) :=
  match form with
  | .toml => Toml.read text
  | .yaml => Yaml.read text
  | .ini => Ini.read text
  | .ron => Ron.read text
  | .json5 => Json5.read text
  | .json =>
    match Decoder.ofText Decoder.value (String.ofList text) with
    | .ok (.object members) => some (SettingTree.ofMembers members)
    | _ => none

end DocumentForm

namespace Document

/-- A text without a mark of byte order at its front. -/
def dropByteOrder (text : List Char) : List Char :=
  match text with
  | '\ufeff' :: rest => rest
  | rest => rest

/-- The entries of the outermost table, if the document is well formed. A mark of
byte order is passed over by whoever opens the file, and once more in TOML. -/
def entries? (document : Document) : Option (List (String × SettingTree)) :=
  let text := dropByteOrder document.text
  document.form.read (if document.form = .toml then dropByteOrder text else text)

/-- The settings that a document gives, if it is well formed. -/
def layer? (document : Document) : Option Layer :=
  document.entries?.map fun entries => entries.map fun entry => (.ofText entry.1, entry.2)

/-- How the paths at which documents are looked up end. -/
def ending : String :=
  ".toml"

/-- Whether the name of a file is nothing but an ending. -/
def isEndingAlone (path : String) : Bool :=
  path == ending || path.endsWith ("/" ++ ending)

/-- The paths at which files are looked for when a document is looked up. -/
def candidates (path : String) : List String :=
  path :: DocumentForm.endings.map fun named => path ++ named.1

/-- The text of a file. -/
def fileText? (found : Except FileFault FileTree) : Option (List Char) :=
  match found with
  | .ok (.file bytes) => some (Text.decodeLossy bytes.toList)
  | _ => none

/-- The document that is looked up at a path, if there is one. A file whose name
is an ending alone is no document, but keeps others from standing in. -/
def find? (find : String → Except FileFault FileTree) (path : String) : Option Document :=
  match fileText? (find path) with
  | some text => if isEndingAlone path then none else some { form := .toml, text }
  | none => DocumentForm.endings.findSome? fun named =>
    (fileText? (find (path ++ named.1))).map fun text => { form := named.2, text }

end Document

end Verdict
