import Verdict.Yaml.Token

/-!
# Layout

While the text of a document is cut into tokens, the layout keeps the columns to
which lists and tables are indented, the brackets that are open, and where a key
may have begun. If a colon follows there, the mark of the key and the beginning of
a table are inserted before what was taken for a plain node.

Outside of brackets a key ends in the line in which it begins.
-/

namespace Verdict
namespace Yaml

/-- Where a key may have begun: how many tokens are before it, and its place. It is
required if nothing but a key may stand there. -/
structure KeySpot where
  number : Nat
  line : Nat
  column : Nat
  offset : Nat
  isRequired : Bool

/-- The column of what is around an indented part, and whether that part is a list
or a table. Otherwise it is what a value must at least be indented to. -/
structure Indent where
  outer : Int
  isOutline : Bool

/-- The text that is left, the tokens so far, the last one first, and what decides
about the next ones. For each open list in brackets, it is known on which level a
pair without braces is open in it. -/
structure Layout where
  text : List Glyph
  tokens : List Token := []
  allowsKey : Bool := true
  spots : List (Option KeySpot) := [none]
  column : Int := -1
  indents : List Indent := []
  pairs : List (Option Nat) := []
  inBraces : Bool := false
  adjacent : Option Nat := none

namespace Layout

/-- How many brackets are open. -/
def level (layout : Layout) : Nat :=
  layout.spots.length - 1

/-- Whether a bracket is open. -/
def inBrackets (layout : Layout) : Bool :=
  0 < layout.level

/-- The glyph at the front. -/
def here (layout : Layout) : Glyph :=
  layout.text.headD ⟨endChar, 0, 0, 0, true⟩

/-- The character behind the one at the front. -/
def next (layout : Layout) : Char :=
  front (layout.text.drop 1)

/-- A layout with some characters passed over. -/
def drop (layout : Layout) (count : Nat) : Layout :=
  { layout with text := layout.text.drop count }

/-- A layout with one more token. -/
def push (layout : Layout) (token : Token) : Layout :=
  { layout with tokens := token :: layout.tokens }

/-- A layout with one more token behind a number of other ones. -/
def insert (layout : Layout) (number : Nat) (token : Token) : Layout :=
  { layout with tokens := layout.tokens.insertIdx (layout.tokens.length - number) token }

/-- A layout in which a key may begin, or may not. -/
def allowing (layout : Layout) (allowsKey : Bool) : Layout :=
  { layout with allowsKey }

/-- Whether the innermost indented part is a list or a table. -/
def isOutlined (layout : Layout) : Bool :=
  layout.indents.head?.any Indent.isOutline

/-- Notes that a key may begin here. -/
def saveSpot (layout : Layout) : Layout :=
  let here := layout.here
  let isRequired := !layout.inBrackets && layout.column == here.column && layout.isOutlined
  let spot : KeySpot :=
    ⟨layout.tokens.length, here.line, here.column, here.offset, isRequired⟩
  if layout.allowsKey then { layout with spots := some spot :: layout.spots.drop 1 } else layout

/-- Forgets where a key may have begun, unless one is required. -/
def clearSpot (layout : Layout) : Option Layout :=
  match layout.spots with
  | some spot :: spots =>
    if spot.isRequired then none else some { layout with spots := none :: spots }
  | _ => some layout

/-- Whether a key that began at a spot can no longer end here. -/
def isStale (layout : Layout) (spot : KeySpot) : Bool :=
  !layout.inBrackets && (spot.line < layout.here.line || spot.offset + 1024 < layout.here.offset)

/-- Forgets where a key may have begun that can no longer end, unless it is required. -/
def clearStale (layout : Layout) : Option Layout :=
  match layout.spots.headD none with
  | some spot => if layout.isStale spot then layout.clearSpot else some layout
  | none => some layout

/-- Begins an indented list or table, with its token behind a number of other ones,
unless it goes on at the same column. -/
def indentTo (layout : Layout) (column number : Nat) (token : Token) : Layout :=
  if layout.inBrackets then layout
  else
    let (current, indents) :=
      match layout.indents with
      | ⟨outer, false⟩ :: indents =>
        if layout.column ≤ column then (outer, indents) else (layout.column, layout.indents)
      | indents => (layout.column, indents)
    if current < column then
      { layout.insert number token with column, indents := ⟨current, true⟩ :: indents }
    else { layout with column := current, indents }

/-- Wants what follows to be indented by one more column. -/
def indentMore (layout : Layout) : Layout :=
  if layout.inBrackets || !layout.isOutlined then layout
  else
    let indents := ⟨layout.column, false⟩ :: layout.indents
    { layout with column := layout.column + 1, indents }

/-- Gives up what was only wanted to be indented. -/
def settle (layout : Layout) : Layout :=
  match layout.indents.dropWhile (!·.isOutline), layout.indents.takeWhile (!·.isOutline) with
  | _, [] => layout
  | indents, loose => { layout with column := (loose.getLast?.map Indent.outer).getD (-1), indents }

/-- Ends the indented parts behind a column, the innermost first. -/
def endIndents (column : Int) (layout : Layout) : List Indent → Layout
  | [] => { layout with indents := [] }
  | indent :: indents =>
    if column < layout.column then
      let ended := { layout with column := indent.outer }
      endIndents column (if indent.isOutline then ended.push .outlineEnd else ended) indents
    else { layout with indents := indent :: indents }

/-- Ends the indented parts behind a column, unless a bracket is open. -/
def dedentTo (layout : Layout) (column : Int) : Layout :=
  if layout.inBrackets then layout else endIndents column layout layout.indents

/-- Ends a pair without braces that is open in the innermost list. -/
def endPair (layout : Layout) : Layout :=
  match layout.pairs with
  | some level :: pairs =>
    if level = layout.level then
      { layout.push .closeTable with inBraces := false, pairs := none :: pairs }
    else layout
  | _ => layout

/-- Passes over the rest of a line if nothing but a comment is in it, and otherwise
over the blanks at the front. -/
def skipBlanks (layout : Layout) : Option Layout :=
  (afterComment? layout.text).map fun text => { layout with text }

/-- Passes over blanks, ends of lines and comments, and tells whether an end of a
line was among them. A tab must not indent anything. -/
def skipFiller (isIndent : Glyph → Bool) (inComment : Bool) :
    (text : List Glyph) → Option (Lexeme Bool)
  | [] => some ⟨false, []⟩
  | glyph :: text =>
    if inComment ∧ !isLineEnd glyph.char then skipFiller isIndent true text
    else if glyph.char = '\t' ∧ isIndent glyph ∧ !isLineDone text then none
    else if Text.isLineBlank glyph.char ∨ glyph.char = '\r' ∧ front text = '\n' then
      skipFiller isIndent false text
    else if isBreak glyph.char then
      (skipFiller isIndent false text).map fun filler => filler.map fun _ => true
    else if glyph.char = '#' then skipFiller isIndent true text
    else some ⟨false, glyph :: text⟩

/-- Whether a glyph stands where what is outlined must be indented. -/
def isIndent (layout : Layout) (glyph : Glyph) : Bool :=
  glyph.isLeading && !layout.indents.isEmpty && glyph.column < layout.column

/-- Passes over everything up to the next token. A key may begin in a new line. -/
def toToken (layout : Layout) : Option Layout :=
  (skipFiller layout.isIndent false layout.text).map fun filler =>
    let allowsKey := layout.allowsKey || (filler.value && !layout.inBrackets)
    { layout with text := filler.rest, allowsKey }

end Layout

end Yaml
end Verdict
