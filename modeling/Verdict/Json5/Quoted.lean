import Verdict.Scanner
import Verdict.Text.Letter

/-!
# Strings and names of a relaxed document

A relaxed document may have comments wherever it may have blanks. Its strings
stand in quotes of either kind, and a backslash takes the end of a line out of
them. A key that is a name needs no quotes.
-/

namespace Verdict
namespace Json5

/-- Whether a character ends a line. -/
def isBreak (char : Char) : Bool :=
  char == '\n' || char == '\r' || char == '\u2028' || char == '\u2029'

/-- Whether a character may stand between the parts of a document. -/
def isBlank (char : Char) : Bool :=
  (Text.isBlank char && char != '\u0085') || char == '\ufeff'

/-- The rest of a comment in brackets, with its end, which must be there. -/
def takeComment : (text : List Char) → Option (Taken Unit text)
  | [] => none
  | '*' :: '/' :: _ => some (Taken.nothing ()).behind.behind
  | _ :: text => (takeComment text).map Taken.behind

/-- The blanks and comments at the front of a text. -/
def takeFiller (text : List Char) : Taken Unit text :=
  match text with
  | [] => .nothing ()
  | '/' :: '/' :: text =>
    let comment := takeAll (!isBreak ·) text
    have _ := (takeAll (!isBreak ·) text).within
    (comment.followedBy (takeFiller comment.rest)).behind.behind
  | '/' :: '*' :: text =>
    match takeComment text with
    | some comment =>
      have _ := comment.within
      (comment.followedBy (takeFiller comment.rest)).behind.behind
    | none => .nothing ()
  | char :: text => if isBlank char then (takeFiller text).behind else .nothing ()
termination_by text.length

/-- The character that a letter after a backslash stands for. -/
def escaped? (letter : Char) : Option Char :=
  match letter with
  | 'b' => some '\x08'
  | 'f' => some '\x0c'
  | 'n' => some '\n'
  | 'r' => some '\r'
  | 't' => some '\t'
  | 'v' => some '\x0b'
  | other => if other.isDigit then none else some other

/-- The character of four hexadecimal digits, or of two escapes that pair. -/
def readUnits : Scanner Char := fun text =>
  (Quote.readUnits text).toOption

/-- What follows a backslash. Before the end of a line it stands for nothing. -/
def readEscape : Scanner (List Char)
  | [] => none
  | '\r' :: '\n' :: _ => some (Parsed.one []).behind
  | '0' :: text =>
    if (text.takeWhile Char.isDigit).isEmpty then some (.one ['\x00']) else none
  | 'x' :: text => (Scanner.codePoint 2 text).map fun char => (char.map fun char => [char]).behind
  | 'u' :: text => (readUnits text).map fun char => (char.map fun char => [char]).behind
  | letter :: _ =>
    if isBreak letter then some (.one [])
    else (escaped? letter).map fun char => .one [char]

/-- A string after its opening quote. -/
def readString (quote : Char) : Scanner (List Char)
  | [] => none
  | '\\' :: text => do
    let chars ← readEscape text
    have _ := chars.shorter
    let others ← readString quote chars.rest
    return (chars.followedBy (others.map (chars.value ++ ·))).behind
  | char :: text =>
    if char = quote then some (.one [])
    else if char = '\n' ∨ char = '\r' then none
    else do
      let others ← readString quote text
      return (others.map (char :: ·)).behind
termination_by text => text.length

/-- Whether a name may begin with a character. -/
def beginsName (char : Char) : Bool :=
  Text.isLetter char || char == '_' || char == '$'

/-- Whether a character may occur in a name. -/
def isNamed (char : Char) : Bool :=
  beginsName char || char.isDigit || Text.isMark char || char == '\u200c' || char == '\u200d'

/-- One character of a name, as it is or as an escape. -/
def readNamed (isMember : Char → Bool) : Scanner Char
  | [] => none
  | '\\' :: 'u' :: text => (readUnits text).map fun char => char.behind.behind
  | char :: _ => if isMember char then some (.one char) else none

/-- The characters that continue a name. -/
def takeNamed (text : List Char) : Taken (List Char) text :=
  match readNamed isNamed text with
  | none => .nothing []
  | some char =>
    have _ := char.shorter
    (char.followedByTaken ((takeNamed char.rest).map (char.value :: ·))).toTaken
termination_by text.length

/-- A key: a string or a name. -/
def readKey : Scanner String
  | '"' :: text => (readString '"' text).map fun chars => (chars.map String.ofList).behind
  | '\'' :: text => (readString '\'' text).map fun chars => (chars.map String.ofList).behind
  | text => (readNamed beginsName text).map fun char =>
    char.followedByTaken ((takeNamed char.rest).map fun others =>
      String.ofList (char.value :: others))

end Json5
end Verdict
