import Verdict.Json.Quote
import Verdict.Yaml.Plain

/-!
# Texts in quotes

A text in quotes goes on until its closing quote. Ends of lines in it count as in
a text without quotes; those behind a backslash do not count at all.

In single quotes a quote is written twice, and there are no escapes.
-/

namespace Verdict
namespace Yaml

/-- What stands between two words in quotes. If a backslash took out the first end
of a line, the others are kept. -/
structure QuotedGap where
  gap : Gap := {}
  isEscaped : Bool := false

namespace QuotedGap

/-- Whether the gap goes on in another line. -/
def isBroken (gap : QuotedGap) : Bool :=
  gap.isEscaped || 0 < gap.gap.breaks

/-- A gap with one more blank. -/
def addBlank (gap : QuotedGap) (char : Char) : QuotedGap :=
  if gap.isBroken then gap else { gap with gap := gap.gap.addBlank char }

/-- A gap with one more end of a line. -/
def addBreak (gap : QuotedGap) : QuotedGap :=
  { gap with gap := gap.gap.addBreak }

/-- What a gap stands for in a text. -/
def text (gap : QuotedGap) : List Char :=
  if gap.isEscaped then List.replicate gap.gap.breaks '\n' else gap.gap.text

end QuotedGap

/-- The character that a letter after a backslash stands for. -/
def escaped? (letter : Char) : Option Char :=
  match letter with
  | '0' => some '\x00'
  | 'a' => some '\x07'
  | 'b' => some '\x08'
  | 't' => some '\t'
  | '\t' => some '\t'
  | 'n' => some '\n'
  | 'v' => some '\x0b'
  | 'f' => some '\x0c'
  | 'r' => some '\r'
  | 'e' => some '\x1b'
  | ' ' => some ' '
  | '"' => some '"'
  | '/' => some '/'
  | '\\' => some '\\'
  | 'N' => some '\u0085'
  | '_' => some '\u00a0'
  | 'L' => some '\u2028'
  | 'P' => some '\u2029'
  | _ => none

/-- How many hexadecimal digits follow a letter after a backslash. -/
def digitCount (letter : Char) : Nat :=
  match letter with
  | 'x' => 2
  | 'u' => 4
  | 'U' => 8
  | _ => 0

/-- What the letter after a backslash and the digits behind it stand for. -/
def readEscape (letter : Char) (text : List Glyph) : Option (Lexeme Char) :=
  let count := digitCount letter
  if count = 0 then (escaped? letter).map fun char => ⟨char, text⟩
  else
    let digits := (text.take count).map Glyph.char
    if digits.length < count then none
    else do
      let code ← Quote.hexValues? digits
      if code.isValidChar then some ⟨Char.ofNat code, text.drop count⟩ else none

/-- Whether a text in quotes must not go on with what is at the front. -/
def isMisplaced (indent : Int) (glyph : Glyph) (text : List Glyph) : Bool :=
  (glyph.column == 0 && isDocumentMark text) || glyph.column < indent

/-- A text in quotes up to and including its closing quote, after a gap or inside
a word. -/
def quotedRest (quote : Char) (indent : Int) (gap : Option QuotedGap) (text : List Glyph) :
    Option (Lexeme (List Char)) :=
  match text with
  | [] => none
  | glyph :: rest =>
    let before := gap.getD {}
    let next := front rest
    if glyph.char = endChar then none
    else if Text.isLineBlank glyph.char then
      if before.isBroken ∧ glyph.column < indent ∧ glyph.char = '\t' then none
      else quotedRest quote indent (some (before.addBlank glyph.char)) rest
    else if glyph.char = '\r' ∧ next = '\n' then quotedRest quote indent gap rest
    else if isBreak glyph.char then quotedRest quote indent (some before.addBreak) rest
    else if gap.isSome ∧ isMisplaced indent glyph text then none
    else if glyph.char = quote then
      if quote = '\'' ∧ next = '\'' then
        (quotedRest quote indent none (rest.drop 1)).map fun others =>
          others.map (before.text ++ quote :: ·)
      else some ⟨before.text, rest⟩
    else if glyph.char = '\\' ∧ quote = '"' then
      if isBreak next then
        if _ : (dropBreak rest).length ≤ rest.length then
          (quotedRest quote indent (some { isEscaped := true }) (dropBreak rest)).map fun others =>
            others.map (before.text ++ ·)
        else none
      else do
        let char ← readEscape next (rest.drop 1)
        if _ : char.rest.length ≤ rest.length then
          let others ← quotedRest quote indent none char.rest
          return others.map (before.text ++ char.value :: ·)
        else none
    else (quotedRest quote indent none rest).map fun others =>
      others.map (before.text ++ glyph.char :: ·)
termination_by text.length

/-- A text after its opening quote, whose further lines must stand at a column or
behind it. -/
def readQuoted (quote : Char) (indent : Int) (text : List Glyph) : Option (Lexeme (List Char)) :=
  quotedRest quote indent (some {}) text

end Yaml
end Verdict
