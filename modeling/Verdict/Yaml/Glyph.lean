import Verdict.Text.Blank

/-!
# Characters in their places

The structure of an outlined document depends on the columns in which its parts
stand. So its text is a list of glyphs, each a character with its place.

The list ends with a glyph for the end of the text. A zero character ends a text
too.
-/

namespace Verdict
namespace Yaml

/-- A character, its line and its column, how many characters are before it, and
whether those of them in its line are all blanks. -/
structure Glyph where
  char : Char
  line : Nat
  column : Nat
  offset : Nat
  isLeading : Bool

/-- The character of the glyph at the end of a text. -/
def endChar : Char :=
  '\x00'

/-- Whether a character ends a line. -/
def isBreak (char : Char) : Bool :=
  char == '\n' || char == '\r'

/-- Whether a character ends a line or the text. -/
def isLineEnd (char : Char) : Bool :=
  isBreak char || char == endChar

/-- Whether a character ends a word. -/
def isSpace (char : Char) : Bool :=
  Text.isLineBlank char || isLineEnd char

/-- Whether a character has a meaning inside brackets. -/
def isBracketMark (char : Char) : Bool :=
  [',', '[', ']', '\x7b', '\x7d'].contains char

/-- Whether a character may occur in a word of a directive. -/
def isWord (char : Char) : Bool :=
  char.isAlphanum || char == '_' || char == '-'

/-- The glyphs of a text that begins at a place. -/
def glyphsFrom (line column offset : Nat) (isLeading : Bool) : List Char → List Glyph
  | [] => [⟨endChar, line, column, offset, isLeading⟩]
  | char :: text =>
    let glyph : Glyph := ⟨char, line, column, offset, isLeading⟩
    if char = endChar then [glyph]
    else if char = '\n' ∨ char = '\r' ∧ text.head? ≠ some '\n' then
      glyph :: glyphsFrom (line + 1) 0 (offset + 1) true text
    else
      glyph :: glyphsFrom line (column + 1) (offset + 1)
        (isLeading && Text.isLineBlank char) text

/-- The glyphs of a text. -/
def glyphs (text : List Char) : List Glyph :=
  glyphsFrom 0 0 0 true text

/-- What was read from the front of a list of glyphs, and the glyphs after it. -/
structure Lexeme (α : Type) where
  value : α
  rest : List Glyph

/-- Another value in place of the one that was read. -/
def Lexeme.map {α β : Type} (convert : α → β) (lexeme : Lexeme α) : Lexeme β :=
  ⟨convert lexeme.value, lexeme.rest⟩

/-- The character at the front. -/
def front : (text : List Glyph) → Char
  | [] => endChar
  | glyph :: _ => glyph.char

/-- The characters at the front that are all of one class. -/
def takeChars (isMember : Char → Bool) (text : List Glyph) : Lexeme (List Char) :=
  ⟨(text.takeWhile fun glyph => isMember glyph.char).map Glyph.char,
    text.dropWhile fun glyph => isMember glyph.char⟩

/-- What follows the end of a line. -/
def dropBreak : (text : List Glyph) → List Glyph
  | [] => []
  | glyph :: text =>
    if glyph.char = '\r' ∧ front text = '\n' then text.drop 1
    else if isBreak glyph.char then text
    else glyph :: text

/-- What follows the blanks at the front, and the comment that may stand behind
them. Nothing results if a comment has no blank before it. -/
def afterComment? (text : List Glyph) : Option (List Glyph) :=
  let blanks := takeChars Text.isLineBlank text
  if front blanks.rest = '#' then
    if blanks.value.isEmpty then none else some (takeChars (!isLineEnd ·) blanks.rest).rest
  else some blanks.rest

/-- Whether nothing but blanks and a comment is left of a line. -/
def isLineDone (text : List Glyph) : Bool :=
  let rest := (takeChars Text.isLineBlank text).rest
  front rest == '#' || isLineEnd (front rest)

/-- Whether three characters of one kind stand at the front as a word of their own. -/
def isRule (char : Char) (text : List Glyph) : Bool :=
  ((text.take 3).map Glyph.char == [char, char, char]) && isSpace (front (text.drop 3))

/-- Whether a mark of the beginning or the end of a document stands at the front. -/
def isDocumentMark (text : List Glyph) : Bool :=
  isRule '-' text || isRule '.' text

end Yaml
end Verdict
