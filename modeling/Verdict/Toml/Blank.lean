import Verdict.Scanner

/-!
# Blanks of a document

No control character but the tab may occur in a line, not even in a comment.

Blanks may stand between the parts of a line. Between the items in a bracket
there may also be line breaks and comments.
-/

namespace Verdict
namespace Toml

/-- Whether a character may not occur in a line. -/
def isControl (char : Char) : Bool :=
  (char.toNat < 0x20 && char != '\t') || char == '\x7f'

/-- The blanks at the front of a text. -/
def takeBlanks (text : List Char) : Taken Unit text :=
  (takeAll Text.isLineBlank text).map fun _ => ()

/-- A comment, if one begins at the front of a text, without the end of its line. -/
def takeComment : (text : List Char) → Taken Unit text
  | '#' :: text => ((takeAll (!isControl ·) text).map fun _ => ()).behind
  | _ => .nothing ()

/-- A line break that stands at the front of a text. -/
def takeBreak : (text : List Char) → Option (Taken Unit text)
  | '\n' :: _ => some (Taken.nothing ()).behind
  | '\r' :: '\n' :: _ => some (Taken.nothing ()).behind.behind
  | _ => none

/-- The rest of a line that holds nothing but a comment. Nothing results if more
is in the line. -/
def takeLineEnd (text : List Char) : Option (Taken Unit text) :=
  let blanks := takeBlanks text
  let taken := blanks.followedBy (takeComment blanks.rest)
  if taken.rest.isEmpty then some taken else (takeBreak taken.rest).map taken.followedBy

/-- The blanks, line breaks and comments at the front of a text. -/
def takeFiller : (text : List Char) → Taken Unit text
  | [] => .nothing ()
  | '\r' :: '\n' :: text => (takeFiller text).behind.behind
  | char :: text =>
    if char = '#' then
      let comment := takeAll (!isControl ·) text
      have _ := (takeAll (!isControl ·) text).within
      (comment.followedBy (takeFiller comment.rest)).behind
    else if Text.isLineBlank char || char == '\n' then (takeFiller text).behind
    else .nothing ()
termination_by text => text.length

end Toml
end Verdict
