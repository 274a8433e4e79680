import Verdict.Ron.Number
import Verdict.Ron.Quoted
import Verdict.Settings.Tree

/-!
# Values of a record document

A record has fields in parentheses, with or without the name of its type. Other
values in parentheses are lists, as those in square brackets are. A table in
braces has texts as its keys. A name alone says that a setting is absent.

At most 128 brackets, items, fields and members are open at once.
-/

namespace Verdict
namespace Ron

/-- The largest number of brackets, items, fields and members that are open at once. -/
def depthLimit : Nat :=
  128

/-- Whether a text after an opening parenthesis begins with a field. -/
def beginsField (text : List Char) : Bool :=
  match readName (takeFiller text).rest with
  | some name => ((takeFiller name.rest).mark? ':').isSome
  | none => false

/-- A key with its value. -/
def readMember (key : Scanner (List Char)) (value : Scanner SettingTree) :
    Scanner (String × SettingTree) := fun text => do
  let pair ← Scanner.pair takeFiller ':' key value text
  return pair.map fun pair => (String.ofList pair.1, pair.2)

/-- Members up to and including the closing character, as a table. -/
def readTable (closing : Char) (key : Scanner (List Char)) (value : Scanner SettingTree) :
    Scanner SettingTree := fun text => do
  let members ← Scanner.items takeFiller closing (readMember key value) text
  return members.map fun members => .table (SettingTree.entriesOf members)

/-- Items up to and including the closing character, as a list. -/
def readList (closing : Char) (item : Scanner SettingTree) : Scanner SettingTree := fun text => do
  let items ← Scanner.items takeFiller closing item text
  return items.map .list

/-- What stands behind an opening parenthesis. -/
def readGroup (value : Scanner SettingTree) : Scanner SettingTree := fun text =>
  if beginsField text then readTable ')' readName value text else readList ')' value text

/-- The setting in the parentheses behind the word for what is there. -/
def readSome (value : Scanner SettingTree) : Scanner SettingTree := fun text => do
  let opening ← (takeFiller text).mark? '('
  let space := takeFiller opening.rest
  let inner ← value space.rest
  let after := takeFiller inner.rest
  let closing ←
    match after.mark? ',' with
    | some comma => ((takeFiller comma.rest).mark? ')').map comma.followedBy
    | none => after.mark? ')'
  let tree := inner.followedBy (closing.map fun _ => inner.value)
  return opening.followedBy (tree.widen space.within)

/-- Whether a character may occur in a number. -/
def isNumeric (char : Char) : Bool :=
  char.isAlphanum || ['_', '.', '+', '-'].contains char

/-- A number. -/
def readNumber : Scanner SettingTree
  | 'b' :: '\'' :: text => (readChar text).map fun char =>
    (char.map fun char => .scalar (.integer char.toNat)).behind.behind
  | first :: text =>
    if first.isDigit ∨ ['+', '-', '.'].contains first then
      let others := takeAll isNumeric text
      (number? (first :: others.value)).map fun value => others.after.map fun _ => .scalar value
    else none
  | [] => none

/-- The scalar that a word stands for. -/
def scalarOf? (word : List Char) : Option Scalar :=
  match Scalar.booleanOf? (String.ofList word) with
  | some value => some (.boolean value)
  | none => real? false word

/-- A value, with scanners for what the word for what is there and what a bracket
may hold. -/
def valueWith (inSome inBracket : Option (Unit → Scanner SettingTree)) : Scanner SettingTree
  | '[' :: text => do
    let value ← inBracket
    return (← readList ']' (value ()) text).behind
  | '\x7b' :: text => do
    let value ← inBracket
    return (← readTable '\x7d' readText (value ()) text).behind
  | '(' :: ')' :: _ => some (Parsed.one .absent).behind
  | '(' :: text => do
    let value ← inBracket
    return (← readGroup (value ()) text).behind
  | text =>
    match readText text, readNumber text with
    | some chars, _ => some (chars.map fun chars => .scalar (.text (String.ofList chars)))
    | none, some number => some number
    | none, none => do
      let word ← readName text
      if word.value = "Some".toList then
        let value ← inSome
        return word.followedBy (← readSome (value ()) word.rest)
      else
        match scalarOf? word.value, (takeFiller word.rest).mark? '(' with
        | some value, _ => return word.map fun _ => .scalar value
        | none, some opening =>
          let value ← inBracket
          return word.followedBy (opening.followedBy (← readGroup (value ()) opening.rest))
        | none, none => return word.map fun _ => .absent

/-- A value in which no more may be opened than the given number. A bracket and
what it holds count one each. -/
def value : (depth : Nat) → Scanner SettingTree
  | 0 => valueWith none none
  | 1 => valueWith (some fun _ => value 0) (some fun _ _ => none)
  | depth + 2 => valueWith (some fun _ => value (depth + 1)) (some fun _ => value depth)

/-- The names of what may be enabled at the front of a document. -/
def featureNames : List (List Char) :=
  ["unwrap_newtypes", "implicit_some", "unwrap_variant_newtypes", "explicit_struct_names"].map
    String.toList

/-- Passes over words that must stand one behind the other, and what fills the
space behind each. -/
def takeWords : (words : List (List Char)) → (text : List Char) → Option (Taken Unit text)
  | [], _ => some (.nothing ())
  | word :: words, text => do
    let letters ← takeLetters word text
    let space := takeFiller letters.rest
    let others ← takeWords words space.rest
    return letters.followedBy (space.followedBy others)

/-- The features that a document enables, after the number sign in front. -/
def readFeatures : Scanner Unit := fun text => do
  let opening ← takeWords [['!'], ['['], "enable".toList, ['(']] text
  let names ← Scanner.items takeFiller ')' readName opening.rest
  if names.value.isEmpty || !names.value.all featureNames.contains then none
  else
    let closing ← (takeFiller names.rest).mark? ']'
    return (names.followedBy closing).widen opening.within

/-- Passes over what stands before the value of a document. -/
def takeOpening (text : List Char) : Option (Taken Unit text) :=
  let space := takeFiller text
  match space.mark? '#' with
  | none => some space
  | some sign => do
    let features ← readFeatures (takeFiller sign.rest).rest
    have _ := sign.shorter
    have _ := (takeFiller sign.rest).within
    have _ := features.shorter
    let others ← takeOpening features.rest
    let behind := (features.followedByTaken others).toTaken
    return (sign.followedByTaken ((takeFiller sign.rest).followedBy behind)).toTaken
termination_by text.length

/-- The entries of a document, which must be a table. -/
def read (text : List Char) : Option (List (String × SettingTree)) := do
  let opening ← takeOpening text
  let value ← value depthLimit opening.rest
  match value.value, (takeFiller value.rest).rest with
  | .table entries, [] => some entries
  | _, _ => none

end Ron
end Verdict
