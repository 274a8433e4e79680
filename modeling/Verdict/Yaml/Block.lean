import Verdict.Yaml.Glyph

/-!
# Texts in blocks

A text in a block consists of the lines that follow its mark and are indented. In
a literal block the ends of lines are kept; in a folded one, the end of a line
between two lines that do not begin with a blank counts as one blank.

The mark may say how deep the lines are indented, and what happens to the ends of
lines behind the text: all are kept, or one, or none.
-/

namespace Verdict
namespace Yaml

/-- Which ends of lines behind a block belong to its text. -/
inductive Chomping where
  | none
  | one
  | all
  deriving DecidableEq

/-- What the mark of a block says: the chomping, and how much deeper than what is
around the block its lines are indented, if it is positive. -/
structure BlockHeader where
  chomping : Chomping := .one
  increment : Nat := 0

/-- The chomping that a sign stands for. -/
def chompingOf? (sign : Char) : Option Chomping :=
  if sign = '+' then some .all else if sign = '-' then some .none else Option.none

/-- The increment that a digit stands for, if it is one; it must not be zero. -/
def readIncrement (text : List Glyph) : Option (Lexeme Nat) :=
  let digit := front text
  if digit = '0' then none
  else if digit.isDigit then some ⟨digit.toNat - '0'.toNat, text.drop 1⟩
  else some ⟨0, text⟩

/-- What the mark of a block says, in either order. -/
def readBlockHeader (text : List Glyph) : Option (Lexeme BlockHeader) :=
  match chompingOf? (front text) with
  | some chomping => (readIncrement (text.drop 1)).map fun increment =>
    increment.map fun increment => { chomping, increment }
  | none => (readIncrement text).map fun increment =>
    match if increment.value = 0 then none else chompingOf? (front increment.rest) with
    | some chomping => ⟨{ chomping, increment := increment.value }, increment.rest.drop 1⟩
    | none => increment.map fun increment => { increment }

/-- Passes over empty lines and over blanks before a column, and counts the lines. -/
def takeIndent (column : Nat) : (text : List Glyph) → Lexeme Nat
  | [] => ⟨0, []⟩
  | glyph :: text =>
    if glyph.char = ' ' ∧ glyph.column < column then takeIndent column text
    else if glyph.char = '\r' ∧ front text = '\n' then takeIndent column text
    else if isBreak glyph.char then (takeIndent column text).map (· + 1)
    else ⟨0, glyph :: text⟩

/-- Passes over empty lines and blanks, counts the lines, and finds the largest
column in which one of them ends or the first other line begins. -/
def takeFirstIndent : (text : List Glyph) → Lexeme (Nat × Nat)
  | [] => ⟨(0, 0), []⟩
  | [glyph] =>
    if glyph.char = ' ' then ⟨(0, 0), []⟩
    else if isBreak glyph.char then ⟨(1, glyph.column), []⟩
    else ⟨(0, glyph.column), [glyph]⟩
  | glyph :: next :: text =>
    if glyph.char = ' ' then takeFirstIndent (next :: text)
    else if glyph.char = '\r' ∧ next.char = '\n' then
      (takeFirstIndent text).map fun found => (found.1 + 1, max found.2 glyph.column)
    else if isBreak glyph.char then
      (takeFirstIndent (next :: text)).map fun found => (found.1 + 1, max found.2 glyph.column)
    else ⟨(0, glyph.column), glyph :: next :: text⟩

/-- The column of the glyph at the front. -/
def frontColumn : (text : List Glyph) → Nat
  | [] => 0
  | glyph :: _ => glyph.column

/-- The lines of a block, and how many ends of lines stand behind the last one. -/
structure BlockText where
  chars : List Char := []
  breaks : Nat := 0

/-- The ends of lines between two lines of a block. -/
def lineGap (isFolded : Bool) (breaks : Nat) : List Char :=
  if isFolded then if breaks = 1 then [' '] else List.replicate (breaks - 1) '\n'
  else List.replicate breaks '\n'

/-- The lines of a block at a column, after a line that did or did not begin with a
blank and the ends of lines behind it. -/
def blockLines (isLiteral : Bool) (column : Nat) (isAfterText : Bool) (breaks : Nat)
    (text : List Glyph) : Lexeme BlockText :=
  if frontColumn text ≠ column ∨ front text = endChar then ⟨{ breaks }, text⟩
  else
    let isText := !Text.isLineBlank (front text)
    let gap := lineGap (!isLiteral && isAfterText && isText) breaks
    let line := takeChars (!isLineEnd ·) text
    let next := takeIndent column (dropBreak line.rest)
    if front line.rest = endChar then ⟨{ chars := gap ++ line.value }, line.rest⟩
    else if _ : next.rest.length < text.length then
      (blockLines isLiteral column isText (next.value + 1) next.rest).map fun others =>
        { others with chars := gap ++ line.value ++ others.chars }
    else ⟨{ chars := gap ++ line.value, breaks := next.value + 1 }, next.rest⟩
termination_by text.length

/-- The ends of lines that belong to a text behind its last line. A last line that
the end of the text closes, at the column of the block or behind it, has one. -/
def BlockText.tail (text : BlockText) (chomping : Chomping) (isClosed : Bool) : List Char :=
  let first := List.replicate (min 1 text.breaks) '\n' ++ if isClosed then ['\n'] else []
  match chomping with
  | .none => []
  | .one => first
  | .all => first ++ List.replicate (text.breaks - 1) '\n'

/-- The text of a block without any line, with the ends of lines in its place. -/
def emptyBlock (chomping : Chomping) (breaks : Nat) : List Char :=
  if chomping = .all then List.replicate breaks '\n' else []

/-- The text of a block at the end of a text. The end of the line of its mark counts
if there is no other. -/
def unfinishedBlock (chomping : Chomping) (isClosed : Bool) (breaks : Nat) : List Char :=
  if chomping = .none ∨ !isClosed then []
  else List.replicate (if chomping = .all then max 1 breaks else 1) '\n'

/-- The column of the lines of a block, and what follows the empty lines in front. -/
def takeBlockIndent (outer : Int) (increment : Nat) (text : List Glyph) : Nat × Lexeme Nat :=
  if increment = 0 then
    let first := takeFirstIndent text
    (max first.value.2 (outer + 1).toNat, first.map fun found => found.1)
  else
    let column := outer.toNat + increment
    (column, takeIndent column text)

/-- The text of a block behind its first character, with the column of what is
around it. -/
def readBlock (isLiteral : Bool) (outer : Int) (text : List Glyph) :
    Option (Lexeme (List Char)) := do
  let header ← readBlockHeader text
  let chomping := header.value.chomping
  let rest ← afterComment? header.rest
  let body := dropBreak rest
  if !isLineEnd (front rest) || front body == '\t' then none
  else
    let (column, start) := takeBlockIndent outer header.value.increment body
    let found := frontColumn start.rest
    if front start.rest = endChar then
      return start.map (unfinishedBlock chomping (isBreak (front rest)))
    else if found < column ∧ outer < found then none
    else if found ≠ column then return start.map (emptyBlock chomping)
    else
      let lines := blockLines isLiteral column false start.value start.rest
      let isClosed := front lines.rest == endChar && max column 1 ≤ frontColumn lines.rest
      return lines.map fun text => text.chars ++ text.tail chomping isClosed

end Yaml
end Verdict
