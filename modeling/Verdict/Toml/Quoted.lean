import Verdict.Toml.Blank

/-!
# Quoted texts of a document

A text in double quotes may hold escapes, and one in single quotes holds just
what is written. Between three quotes of either kind a text may have line
breaks, of which one right behind the opening quotes does not count.
-/

namespace Verdict
namespace Toml

/-- The character that a letter after a backslash stands for. -/
def escaped? (letter : Char) : Option Char :=
  if letter = '/' then none
  else if letter = 'e' then some '\x1b'
  else Quote.escaped? letter

/-- What follows a backslash. -/
def readEscape : Scanner Char
  | [] => none
  | 'x' :: text => (Scanner.codePoint 2 text).map Parsed.behind
  | 'u' :: text => (Scanner.codePoint 4 text).map Parsed.behind
  | 'U' :: text => (Scanner.codePoint 8 text).map Parsed.behind
  | letter :: _ => (escaped? letter).map Parsed.one

/-- A text after its opening double quote. -/
def readBasic : Scanner (List Char)
  | [] => none
  | '"' :: _ => some (.one [])
  | '\\' :: text => do
    let char ← readEscape text
    have _ := char.shorter
    let others ← readBasic char.rest
    return (char.followedBy (others.map (char.value :: ·))).behind
  | char :: text =>
    if isControl char then none
    else do
      let others ← readBasic text
      return (others.map (char :: ·)).behind
termination_by text => text.length

/-- A text after its opening single quote. -/
def readLiteral (text : List Char) : Option (Parsed (List Char) text) :=
  let chars := takeAll (fun char => !isControl char && char != '\'') text
  match chars.ahead with
  | .char '\'' rest shorter => some ⟨chars.value, rest, shorter⟩
  | _ => none

/-- Three closing quotes, and up to two more before them that belong to the text. -/
def readClosing (quote : Char) : Scanner (List Char) := fun text =>
  let count := min 5 (text.takeWhile (· == quote)).length
  if closed : 3 ≤ count then
    some ⟨List.replicate (count - 3) quote, text.drop count, by
      have bound := (List.takeWhile_prefix (· == quote) (l := text)).length_le
      simp only [List.length_drop]
      omega⟩
  else none

/-- The blanks and line breaks at the front of a text. -/
def takeGap : (text : List Char) → Taken Unit text
  | '\r' :: '\n' :: text => (takeGap text).behind.behind
  | char :: text =>
    if Text.isLineBlank char || char == '\n' then (takeGap text).behind else .nothing ()
  | [] => .nothing ()

/-- The end of a line and all blanks and line breaks after it, which a backslash
takes out of a text. -/
def takeContinuation (text : List Char) : Option (Taken Unit text) :=
  let blanks := takeBlanks text
  (takeBreak blanks.rest).map fun lineBreak =>
    blanks.followedBy (lineBreak.followedBy (takeGap lineBreak.rest))

/-- A text of several lines, up to and including its three closing quotes. -/
def readLines (quote : Char) (text : List Char) : Option (Parsed (List Char) text) :=
  match readClosing quote text with
  | some closing => some closing
  | none =>
    match text with
    | [] => none
    | '\r' :: '\n' :: text => do
      let others ← readLines quote text
      return (others.map ('\r' :: '\n' :: ·)).behind.behind
    | char :: text =>
      if char = '\\' ∧ quote = '"' then
        match takeContinuation text with
        | some taken => do
          have _ := taken.within
          let others ← readLines quote taken.rest
          return (others.widen taken.within).behind
        | none => do
          let char ← readEscape text
          have _ := char.shorter
          let others ← readLines quote char.rest
          return (char.followedBy (others.map (char.value :: ·))).behind
      else if isControl char && char != '\n' then none
      else do
        let others ← readLines quote text
        return (others.map (char :: ·)).behind
termination_by text.length

/-- A text of several lines after its three opening quotes. -/
def readLong (quote : Char) : Scanner (List Char) := fun text => do
  let lineBreak := (takeBreak text).getD (.nothing ())
  let chars ← readLines quote lineBreak.rest
  return chars.widen lineBreak.within

/-- A quoted text. -/
def readQuoted : Scanner (List Char)
  | '"' :: '"' :: '"' :: text => (readLong '"' text).map (·.behind.behind.behind)
  | '\'' :: '\'' :: '\'' :: text => (readLong '\'' text).map (·.behind.behind.behind)
  | '"' :: text => (readBasic text).map Parsed.behind
  | '\'' :: text => (readLiteral text).map Parsed.behind
  | _ => none

end Toml
end Verdict
