import Verdict.Toml.Value

/-!
# Documents in lines

A document is read line by line. A header opens a table, or another element of a
list of tables; a pair gives a key of the table that is open its value. Each is
followed by nothing but a comment in its line.

What is given before the first header belongs to the outermost table.
-/

namespace Verdict
namespace Toml

/-- What a line of a document says. -/
inductive Statement where
  | table (path : List String)
  | element (path : List String)
  | pair (key : List String) (value : Node)

/-- What the lines of a document have said so far, and the table that is open. -/
structure Draft where
  entries : Entries := []
  current : List String := []

/-- The path of a header and its closing bracket. -/
def readHeader (text : List Char) : Option (Parsed (List String) text) := do
  let path ← readParts keyLimit text
  match (takeBlanks path.rest).ahead with
  | .char ']' rest shorter => return path.followedBy ⟨path.value, rest, shorter⟩
  | _ => none

/-- One statement. -/
def readStatement : Scanner Statement
  | '[' :: '[' :: text => do
    let header ← readHeader text
    match (Taken.nothing () : Taken Unit header.rest).ahead with
    | .char ']' rest shorter =>
      return (header.followedBy ⟨.element header.value, rest, shorter⟩).behind.behind
    | _ => none
  | '[' :: text => do
    let header ← readHeader text
    return (header.map .table).behind
  | text => do
    let pair ← readPair takeBlanks (value depthLimit) text
    return pair.map fun pair => .pair pair.1 pair.2

namespace Draft

/-- A draft after one more statement. -/
def add (draft : Draft) : Statement → Option Draft
  | .table path => do
    return { entries := ← draft.entries.openTable path, current := path }
  | .element path => do
    return { entries := ← draft.entries.openElement path, current := path }
  | .pair key value => do
    let entries ← draft.entries.alterAt .header (·.assign key value) draft.current
    return { draft with entries }

/-- A draft after all statements of a text. -/
def addAll (draft : Draft) (text : List Char) : Option Draft :=
  let filler := takeFiller text
  if filler.rest.isEmpty then some draft
  else do
    let statement ← readStatement filler.rest
    let lineEnd ← takeLineEnd statement.rest
    have _ := filler.within
    have _ := statement.shorter
    have _ := lineEnd.within
    addAll (← draft.add statement.value) lineEnd.rest
termination_by text.length

end Draft

/-- The entries of the outermost table of a document, if it is well formed. -/
def read (text : List Char) : Option (List (String × SettingTree)) :=
  (Draft.addAll {} text).map fun draft => Node.toEntries draft.entries

end Toml
end Verdict
