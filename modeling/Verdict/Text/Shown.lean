import Verdict.Text.Unseen

/-!
# Strings shown in messages

A string that a message quotes stands between quotes, on one line. Characters
that cannot be seen are shown by their code points.
-/

namespace Verdict
namespace Text

/-- A code point in braces, in lower-case hexadecimal digits. -/
def codePointText (char : Char) : List Char :=
  '\\' :: 'u' :: '\x7b' :: Nat.toDigits 16 char.toNat ++ ['\x7d']

/-- A character as a message shows it. -/
def shownChar (char : Char) : List Char :=
  match char with
  | '\x00' => ['\\', '0']
  | '\t' => ['\\', 't']
  | '\n' => ['\\', 'n']
  | '\r' => ['\\', 'r']
  | '"' => ['\\', '"']
  | '\\' => ['\\', '\\']
  | _ => if isUnseen char then codePointText char else [char]

/-- A string as a message shows it. -/
def shown (text : String) : String :=
  String.ofList ('"' :: text.toList.flatMap shownChar ++ ['"'])

end Text
end Verdict
