import Verdict.Yaml.Glyph

/-!
# Texts without quotes

A text without quotes may go on in further lines that are indented. The blanks
between two words are kept, the end of a line counts as one blank, and of several
ends of lines in a row all but the first are kept.
-/

namespace Verdict
namespace Yaml

/-- What stands between two words: blanks of one line, or ends of lines. -/
structure Gap where
  blanks : List Char := []
  breaks : Nat := 0

namespace Gap

/-- A gap with one more blank, which does not count behind the end of a line. -/
def addBlank (gap : Gap) (char : Char) : Gap :=
  if gap.breaks = 0 then { gap with blanks := gap.blanks ++ [char] } else gap

/-- A gap with one more end of a line. -/
def addBreak (gap : Gap) : Gap :=
  { breaks := gap.breaks + 1 }

/-- What a gap stands for in a text. -/
def text (gap : Gap) : List Char :=
  match gap.breaks with
  | 0 => gap.blanks
  | 1 => [' ']
  | more + 1 => List.replicate more '\n'

end Gap

/-- A text without quotes, and whether an end of a line was passed over behind it. -/
structure PlainText where
  chars : List Char := []
  isBroken : Bool := false

/-- Whether a text without quotes ends before a character, given the next one. -/
def endsPlain (inBrackets : Bool) (char next : Char) : Bool :=
  (char == ':' && (isSpace next || (inBrackets && isBracketMark next))) ||
    (inBrackets && isBracketMark char)

/-- Whether a character may not begin a word in brackets, given the next one. -/
def isStrayDash (inBrackets : Bool) (char next : Char) : Bool :=
  inBrackets && char == '-' && isBracketMark next

/-- A text with more characters at its front. -/
def PlainText.prepend (chars : List Char) (text : PlainText) : PlainText :=
  { text with chars := chars ++ text.chars }

/-- What follows a text without quotes, or the gap behind one of its words. -/
def plainRest (indent : Int) (inBrackets : Bool) (gap : Option Gap) :
    (text : List Glyph) → Option (Lexeme PlainText)
  | [] => some ⟨{}, []⟩
  | glyph :: rest =>
    let atEnd : Lexeme PlainText := ⟨{ isBroken := gap.any (0 < ·.breaks) }, glyph :: rest⟩
    let before := gap.getD {}
    let next := front rest
    if glyph.char = endChar then some atEnd
    else if Text.isLineBlank glyph.char then
      let isIndent := 0 < before.breaks ∧ glyph.column < indent ∧ glyph.char = '\t'
      if isIndent ∧ !isLineDone rest then none
      else plainRest indent inBrackets (some (before.addBlank glyph.char)) rest
    else if glyph.char = '\r' ∧ next = '\n' then plainRest indent inBrackets gap rest
    else if isBreak glyph.char then plainRest indent inBrackets (some before.addBreak) rest
    else if gap.isSome ∧ (!inBrackets ∧ glyph.column < indent ∨ glyph.char = '#' ∨
        glyph.isLeading ∧ isDocumentMark (glyph :: rest)) then some atEnd
    else if gap.isSome ∧ isStrayDash inBrackets glyph.char next then none
    else if endsPlain inBrackets glyph.char next then some atEnd
    else (plainRest indent inBrackets none rest).map fun others =>
      others.map (.prepend (before.text ++ [glyph.char]))

/-- A text without quotes, whose further lines must stand at a column or behind it. -/
def readPlain (indent : Int) (inBrackets : Bool) (text : List Glyph) : Option (Lexeme PlainText) :=
  match text with
  | [] => none
  | glyph :: rest =>
    let next := front rest
    if isSpace glyph.char ∨ glyph.char = '#' ∨ glyph.isLeading ∧ isDocumentMark text ∨
        isStrayDash inBrackets glyph.char next ∨ endsPlain inBrackets glyph.char next then none
    else (plainRest indent inBrackets none rest).map fun others =>
      others.map (.prepend [glyph.char])

end Yaml
end Verdict
