import Verdict.Scanner
import Verdict.Settings.Tree

/-!
# Documents in sections

A document in sections gives keys their texts, with an equals sign or a colon
between a key and the rest of its line. A section begins with its name in square
brackets; what is given before the first section belongs to the outermost table.

A line that begins with a semicolon or a number sign is a comment. A backslash
introduces an escape wherever it stands.
-/

namespace Verdict
namespace Ini

/-- What a document says: nothing, where a section begins, or what text a key has. -/
inductive Statement where
  | comment
  | header (name : String)
  | pair (key text : String)

/-- The characters that a letter after a backslash stands for. -/
def escaped (letter : Char) : List Char :=
  match letter with
  | '0' => ['\x00']
  | 'a' => ['\x07']
  | 'b' => ['\x08']
  | 't' => ['\t']
  | 'r' => ['\r']
  | 'n' => ['\n']
  | '\n' => []
  | other => [other]

/-- What follows a backslash. -/
def readEscape : Scanner (List Char)
  | [] => none
  | 'x' :: text => (Scanner.codePoint 4 text).map fun char => (char.map fun char => [char]).behind
  | letter :: _ => some (.one (escaped letter))

/-- The characters at the front of a text up to one that ends them. -/
def takeUntil (isEnd : Char → Bool) : (text : List Char) → Option (Taken (List Char) text)
  | [] => some (.nothing [])
  | '\\' :: text => do
    let chars ← readEscape text
    have _ := chars.shorter
    let others ← takeUntil isEnd chars.rest
    return (chars.followedByTaken (others.map (chars.value ++ ·))).toTaken.behind
  | char :: text =>
    if isEnd char then some (.nothing [])
    else do
      let others ← takeUntil isEnd text
      return (others.map (char :: ·)).behind
termination_by text => text.length

/-- Whether a character ends a line. -/
def isBreak (char : Char) : Bool :=
  char == '\n' || char == '\r'

/-- The text of a key: quoted parts, and what is left of the line, which is not
quoted and has no blanks at its end, nor at its front if it is all. -/
def takeParts (isFirst : Bool) (text : List Char) : Option (Taken (List Char) text) :=
  match text with
  | [] => some (.nothing [])
  | first :: rest =>
    if first = '"' ∨ first = '\'' then do
      let part ← takeUntil (· == first) rest
      let closing ← part.mark? first
      have _ := closing.shorter
      let others ← takeParts false closing.rest
      return (closing.followedByTaken (others.map (part.value ++ ·))).toTaken.behind
    else do
      let line ← takeUntil isBreak (first :: rest)
      return line.map (if isFirst then Text.trim else Text.trimEnd)
termination_by text.length

/-- A key and its text. -/
def readPair : Scanner Statement := fun text => do
  let key ← takeUntil (fun char => char == '=' || char == ':') text
  let mark ← (key.mark? '=').or (key.mark? ':')
  let name := Text.trim key.value
  if name.isEmpty then none
  else
    let blanks := takeAll (fun char => Text.isBlank char && !isBreak char) mark.rest
    let value ← takeParts true blanks.rest
    let statement := value.map fun chars => .pair (String.ofList name) (String.ofList chars)
    return mark.followedByTaken (blanks.followedBy statement)

/-- One statement, which may be a comment if it begins a line. -/
def readStatement (beginsLine : Bool) : Scanner Statement
  | [] => none
  | first :: text =>
    if first = ';' ∨ first = '#' then
      if beginsLine then some ((takeAll (· != '\n') text).after.map fun _ => .comment) else none
    else if first = '[' then do
      let name ← takeUntil (· == ']') text
      let closing ← name.mark? ']'
      return (closing.map fun _ => .header (String.ofList (Text.trim name.value))).behind
    else readPair (first :: text)

/-- Passes over white space, and tells whether what follows begins a line. -/
def takeGap (beginsLine : Bool) : (text : List Char) → Taken Bool text
  | [] => .nothing beginsLine
  | char :: text =>
    if Text.isBlank char then (takeGap (char == '\n') text).behind else .nothing beginsLine

/-- The statements of a document, if it is well formed. -/
def statements? (beginsLine : Bool) (text : List Char) : Option (List Statement) :=
  let gap := takeGap beginsLine text
  if gap.rest.isEmpty then some []
  else do
    let statement ← readStatement gap.value gap.rest
    have _ := (takeGap beginsLine text).within
    have _ : statement.rest.length < (takeGap beginsLine text).rest.length := statement.shorter
    let others ← statements? false statement.rest
    return statement.value :: others
termination_by text.length

/-- What statements have said so far: the pairs before the first section, and the
sections with their pairs, the last one first. -/
structure Draft where
  pairs : List (String × SettingTree) := []
  sections : List (String × List (String × SettingTree)) := []

namespace Draft

/-- A draft after one more statement. -/
def add (draft : Draft) : Statement → Draft
  | .comment => draft
  | .header name => { draft with sections := (name, []) :: draft.sections }
  | .pair key text =>
    let pair := (key, SettingTree.scalar (.text text))
    match draft.sections with
    | [] => { draft with pairs := draft.pairs ++ [pair] }
    | (name, pairs) :: others => { draft with sections := (name, pairs ++ [pair]) :: others }

/-- The entries of the outermost table. Of two sections of one name, the later
one counts as a whole. -/
def entries (draft : Draft) : List (String × SettingTree) :=
  let sections := draft.sections.reverse.map fun named =>
    (named.1, SettingTree.table (SettingTree.entriesOf named.2))
  SettingTree.entriesOf (draft.pairs ++ sections)

end Draft

/-- The entries of the outermost table of a document, if it is well formed. -/
def read (text : List Char) : Option (List (String × SettingTree)) :=
  (statements? true text).map fun statements => (statements.foldl Draft.add {}).entries

end Ini
end Verdict
