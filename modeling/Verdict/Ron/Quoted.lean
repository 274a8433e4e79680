import Verdict.Scanner
import Verdict.Text.Letter

/-!
# Texts and names of a record document

A text stands in double quotes and may hold escapes and line breaks. Behind an
`r` and number signs it has no escapes, and ends at a quote with as many number
signs. A character in single quotes is a text too.

Comments in brackets may be nested. Names may be marked by `r#`, which admits
some signs in them.
-/

namespace Verdict
namespace Ron

/-- Whether a character may stand between the parts of a document. -/
def isBlank (char : Char) : Bool :=
  (9 ≤ char.toNat && char.toNat ≤ 13) ||
    [' ', '\u0085', '\u200e', '\u200f', '\u2028', '\u2029'].contains char

/-- The rest of a comment, with the ends of as many brackets as are open. -/
def takeComment (level : Nat) : (text : List Char) → Option (Taken Unit text)
  | [] => none
  | '/' :: '*' :: text => (takeComment (level + 1) text).map fun comment => comment.behind.behind
  | '*' :: '/' :: text =>
    if level ≤ 1 then some (Taken.nothing ()).behind.behind
    else (takeComment (level - 1) text).map fun comment => comment.behind.behind
  | _ :: text => (takeComment level text).map Taken.behind

/-- The blanks and comments at the front of a text. -/
def takeFiller (text : List Char) : Taken Unit text :=
  match text with
  | [] => .nothing ()
  | '/' :: '/' :: text =>
    let comment := takeAll (· != '\n') text
    have _ := (takeAll (· != '\n') text).within
    (comment.followedBy (takeFiller comment.rest)).behind.behind
  | '/' :: '*' :: text =>
    match takeComment 1 text with
    | some comment =>
      have _ := comment.within
      (comment.followedBy (takeFiller comment.rest)).behind.behind
    | none => .nothing ()
  | char :: text => if isBlank char then (takeFiller text).behind else .nothing ()
termination_by text.length

/-- The character that a letter after a backslash stands for. -/
def escaped? (letter : Char) : Option Char :=
  match letter with
  | '\'' => some '\''
  | '"' => some '"'
  | '\\' => some '\\'
  | 'n' => some '\n'
  | 'r' => some '\r'
  | 't' => some '\t'
  | '0' => some '\x00'
  | _ => none

/-- What follows a backslash. -/
def readEscape : Scanner Char
  | [] => none
  | 'x' :: text => (Scanner.codePoint 2 text).map Parsed.behind
  | 'u' :: '\x7b' :: text => do
    let digits := takeAll Char.isAlphanum text
    let closing ← digits.mark? '\x7d'
    let code ← Quote.hexValues? digits.value
    if valid : 0 < digits.value.length ∧ digits.value.length ≤ 6 ∧ code.isValidChar then
      return (closing.map fun _ => Char.ofNatAux code valid.2.2).behind.behind
    else none
  | letter :: _ => (escaped? letter).map Parsed.one

/-- A text after its opening quote. -/
def readString : Scanner (List Char)
  | [] => none
  | '"' :: _ => some (.one [])
  | '\\' :: text => do
    let char ← readEscape text
    have _ := char.shorter
    let others ← readString char.rest
    return (char.followedBy (others.map (char.value :: ·))).behind
  | char :: text => do
    let others ← readString text
    return (others.map (char :: ·)).behind
termination_by text => text.length

/-- A text without escapes up to a quote with the number signs that close it. -/
def readUntil (signs : List Char) : Scanner (List Char)
  | [] => none
  | char :: text =>
    match if char = '"' then takeLetters signs text else none with
    | some closing => some (closing.after.map fun _ => [])
    | none => (readUntil signs text).map fun others => (others.map (char :: ·)).behind

/-- A text without escapes behind the letter that begins it. -/
def readRaw : Scanner (List Char) := fun text => do
  let signs := takeAll (· == '#') text
  let quote ← signs.mark? '"'
  let chars ← readUntil signs.value quote.rest
  return quote.followedBy chars

/-- A character as it is or as an escape. -/
def readPlain : Scanner Char
  | [] => none
  | '\\' :: text => (readEscape text).map Parsed.behind
  | char :: _ => some (.one char)

/-- A character after its opening quote. -/
def readChar : Scanner Char := fun text => do
  let char ← readPlain text
  let closing ← char.toTaken.mark? '\''
  return closing.map fun _ => char.value

/-- A text in quotes of any kind. -/
def readText : Scanner (List Char)
  | '"' :: text => (readString text).map Parsed.behind
  | '\'' :: text => (readChar text).map fun char => (char.map fun char => [char]).behind
  | 'r' :: text => (readRaw text).map Parsed.behind
  | 'b' :: '"' :: text => (readString text).map fun chars => chars.behind.behind
  | 'b' :: 'r' :: text => (readRaw text).map fun chars => chars.behind.behind
  | _ => none

/-- Whether a name may begin with a character. -/
def beginsName (char : Char) : Bool :=
  Text.isLetter char || char == '_'

/-- Whether a character may occur in a name. -/
def isNamed (char : Char) : Bool :=
  beginsName char || char.isDigit || Text.isMark char

/-- Whether a character may occur in a name that is marked. -/
def isMarkedNamed (char : Char) : Bool :=
  isNamed char || char == '.' || char == '+' || char == '-'

/-- A name. -/
def readName : Scanner (List Char)
  | 'r' :: '#' :: first :: text =>
    if isMarkedNamed first then
      some ((takeAll isMarkedNamed text).after.map (first :: ·)).behind.behind
    else none
  | first :: text =>
    if beginsName first then some ((takeAll isNamed text).after.map (first :: ·)) else none
  | [] => none

end Ron
end Verdict
