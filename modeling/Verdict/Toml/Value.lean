import Verdict.Toml.Atom
import Verdict.Toml.Node
import Verdict.Toml.Quoted

/-!
# Values of a document

A value is a scalar, a list in square brackets or a table in braces. A table in
braces holds pairs of a key and a value, as the lines of a document do, but its
pairs may run over several lines.

Keys have at most eighty parts, and at most eighty brackets are open at once.
-/

namespace Verdict
namespace Toml

/-- The largest number of parts of a key. -/
def keyLimit : Nat :=
  80

/-- The largest number of brackets that are open at once. -/
def depthLimit : Nat :=
  80

/-- A part of a key that is not quoted, of the characters of keys in paths. -/
def readBare : Scanner String
  | [] => none
  | first :: text =>
    if SettingPath.isNamed first then
      some ((takeAll SettingPath.isNamed text).after.map fun others =>
        String.ofList (first :: others))
    else none

/-- One part of a key. -/
def readPart : Scanner String
  | '"' :: text => (readBasic text).map fun chars => (chars.map String.ofList).behind
  | '\'' :: text => (readLiteral text).map fun chars => (chars.map String.ofList).behind
  | text => readBare text

/-- The parts of a key, of which there may be as many as given. -/
def readParts : (count : Nat) → Scanner (List String)
  | 0 => fun _ => none
  | count + 1 => fun text => do
    let blanks := takeBlanks text
    let part ← readPart blanks.rest
    match (takeBlanks part.rest).ahead with
    | .char '.' rest shorter => do
      let others ← readParts count rest
      let parts := (others.map (part.value :: ·)).widen (Nat.le_of_lt shorter)
      return (part.followedBy parts).widen blanks.within
    | _ => return (part.map fun name => [name]).widen blanks.within

/-- A key with its value, with what may stand on both sides of the mark between them. -/
def readPair (space : Filler) (value : Scanner Node) : Scanner (List String × Node) :=
  Scanner.pair space '=' (readParts keyLimit) value

/-- The entries that the pairs of a table in braces give, up to and including the
closing brace. -/
def readEntries (value : Scanner Node) : Scanner Entries := fun text => do
  let pairs ← Scanner.items takeFiller '\x7d' (readPair takeFiller value) text
  let add (entries : Entries) (pair : List String × Node) := entries.assign pair.1 pair.2
  let entries ← pairs.value.foldlM add []
  return pairs.map fun _ => entries

/-- Whether a character may occur in a scalar that is not quoted. -/
def isAtom (char : Char) : Bool :=
  !Text.isLineBlank char && !isControl char && ['#', ',', ']', '\x7d'].all (· != char)

/-- A scalar that has begun, with the time that may stand one blank behind a day. -/
def takeTime (begun : List Char) : (text : List Char) → Taken (List Char) text
  | ' ' :: digit :: text =>
    if Moment.isDay begun && digit.isDigit then
      ((takeAll isAtom text).map fun others => begun ++ ' ' :: digit :: others).behind.behind
    else .nothing begun
  | _ => .nothing begun

/-- A scalar that is not quoted. -/
def readAtom : Scanner Node
  | [] => none
  | first :: text =>
    if isAtom first then
      let others := takeAll isAtom text
      let whole := others.followedBy (takeTime (first :: others.value) others.rest)
      (atom? whole.value).map fun value => whole.after.map fun _ => .scalar value
    else none

/-- A value with a scanner for what a bracket encloses, or none if no bracket may
be opened any more. -/
def valueWith (inside : Option (Unit → Scanner Node)) : Scanner Node
  | '[' :: text => do
    let value ← inside
    let items ← Scanner.items takeFiller ']' (value ()) text
    return (items.map .list).behind
  | '\x7b' :: text => do
    let value ← inside
    let entries ← readEntries (value ()) text
    return (entries.map (.table .braces)).behind
  | text =>
    match readQuoted text with
    | some chars => some (chars.map fun chars => .scalar (.text (String.ofList chars)))
    | none => readAtom text

/-- A value in which at most the given number of brackets is open at once. -/
def value : (depth : Nat) → Scanner Node
  | 0 => valueWith none
  | depth + 1 => valueWith (some fun _ => value depth)

end Toml
end Verdict
