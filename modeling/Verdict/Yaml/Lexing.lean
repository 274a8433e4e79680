import Verdict.Yaml.Block
import Verdict.Yaml.Layout
import Verdict.Yaml.Quoted

/-!
# Cutting a text into tokens

Each step takes the characters of one token from the front of the text and says
what they do to the layout. A text is refused where no token can begin, or where
the layout does not admit the one that begins there.
-/

namespace Verdict
namespace Yaml
namespace Layout

/-- The largest number of brackets that are open at once. -/
def levelLimit : Nat :=
  255

/-- A token that ends what is indented: a directive or a mark of a document. -/
def atMargin (layout : Layout) : Option Layout :=
  ((layout.dedentTo (-1)).clearSpot).map (·.allowing false)

/-- The end of the text. -/
def takeTextEnd (layout : Layout) : Option Layout :=
  if layout.spots.any fun spot => spot.any KeySpot.isRequired then none
  else layout.atMargin.map (·.push .textEnd)

/-- A directive. -/
def takeDirective (layout : Layout) : Option Layout := do
  let layout ← layout.atMargin
  let directive ← readDirective (layout.text.drop 1)
  return { layout with text := directive.rest }.push (.directive directive.value)

/-- A mark of the beginning of a document. -/
def takeDocumentStart (layout : Layout) : Option Layout :=
  layout.atMargin.map fun layout => (layout.drop 3).push .documentStart

/-- A mark of the end of a document, behind which only a comment may stand. -/
def takeDocumentEnd (layout : Layout) : Option Layout := do
  let layout ← layout.atMargin
  let layout ← ((layout.drop 3).push .documentEnd).skipBlanks
  if isLineEnd layout.here.char then return layout else none

/-- An opening bracket. -/
def takeOpening (layout : Layout) (token : Token) : Option Layout :=
  let outside := layout.saveSpot.indentMore
  let inside := { outside.drop 1 with spots := none :: outside.spots, allowsKey := true }
  if outside.level = levelLimit then none
  else if token = .openTable then ({ inside with inBraces := true }.push token).skipBlanks
  else ({ inside with pairs := none :: inside.pairs }.push token).skipBlanks

/-- A closing bracket. -/
def takeClosing (layout : Layout) (token : Token) : Option Layout := do
  let layout ← layout.clearSpot
  let layout :=
    if token = .closeList then { layout.endPair with pairs := layout.pairs.drop 1 } else layout
  let spots := if layout.inBrackets then layout.spots.drop 1 else layout.spots
  let layout ← ({ layout.drop 1 with spots, allowsKey := false }.push token).skipBlanks
  return if layout.inBrackets then { layout with adjacent := layout.here.offset } else layout

/-- A comma inside brackets. -/
def takeComma (layout : Layout) : Option Layout := do
  let layout ← layout.clearSpot
  ((layout.allowing true).endPair.drop 1 |>.push .comma).skipBlanks

/-- The dash of an item of an indented list. -/
def takeDash (layout : Layout) : Option Layout :=
  if layout.inBrackets || !layout.allowsKey then none
  else do
    let blanks := takeChars Text.isLineBlank (layout.text.drop 1)
    let listed := layout.indentTo layout.here.column layout.tokens.length .outlineList
    let next ← (listed.drop 1).skipBlanks
    let char := next.here.char
    if blanks.value.contains '\t' && char == '-' && isSpace next.next then none
    else
      let next := if isBreak char || isBracketMark char then next.indentMore else next
      return ((← next.clearSpot).allowing true).push .dash

/-- Passes over plain blanks, ends of lines and comments, and tells whether there
was a blank or an end of a line, and whether there was the latter. -/
def skipPlainFiller (inComment : Bool) : (text : List Glyph) → Lexeme (Bool × Bool)
  | [] => ⟨(false, false), []⟩
  | glyph :: text =>
    if inComment ∧ !isLineEnd glyph.char then skipPlainFiller true text
    else if glyph.char = '\r' ∧ front text = '\n' then skipPlainFiller false text
    else if glyph.char = ' ' then (skipPlainFiller false text).map fun found => (true, found.2)
    else if isBreak glyph.char then (skipPlainFiller false text).map fun _ => (true, true)
    else if glyph.char = '#' then skipPlainFiller true text
    else ⟨(false, false), glyph :: text⟩

/-- The question mark in front of a key that may be of any kind. -/
def takeQuestion (layout : Layout) : Option Layout :=
  if !layout.inBrackets && !layout.allowsKey then none
  else do
    let layout :=
      if layout.inBrackets then { layout with inBraces := true }
      else layout.indentTo layout.here.column layout.tokens.length .outlineTable
    let layout ← layout.clearSpot
    let filler := skipPlainFiller false (layout.text.drop 1)
    if !filler.value.1 || front filler.rest == '\t' then none
    else
      let allowsKey := !layout.inBrackets
      return { layout with text := filler.rest, allowsKey }.push .key

/-- Passes over what stands behind a colon. A word must not follow it behind
nothing but tabs. -/
def skipBehindColon (layout : Layout) : Option Layout :=
  if layout.here.char = '\t' then do
    let blanks := takeChars Text.isLineBlank layout.text
    let next ← layout.skipBlanks
    if !blanks.value.contains ' ' && isWord next.here.char then none else return next
  else some layout

/-- The colon behind a key that began at a spot, with the tokens in front of it. -/
def markKey (layout : Layout) (spot : KeySpot) (isPair : Bool) : Layout :=
  let keyed := layout.insert spot.number .key
  let opened := if isPair then keyed.insert spot.number .openTable else keyed
  let outlined := (opened.indentTo spot.column spot.number .outlineTable).indentMore
  { outlined with spots := none :: outlined.spots.drop 1, allowsKey := false }

/-- The colon behind a key that was marked before, or that is missing. -/
def markValue (layout : Layout) (column : Nat) (isPair : Bool) : Option Layout :=
  let opened := if isPair then layout.push .openTable else layout
  if !opened.inBrackets && !opened.allowsKey then none
  else
    let outlined := opened.indentTo column opened.tokens.length .outlineTable
    some (outlined.indentMore.allowing !outlined.inBrackets)

/-- The colon in front of a value. In a list in brackets it makes a pair. -/
def takeColon (layout : Layout) : Option Layout := do
  let start := layout.here
  let isPair := !layout.pairs.isEmpty && !layout.inBraces
  let pairs := if isPair then some layout.level :: layout.pairs.drop 1 else layout.pairs
  let layout ← { layout.drop 1 with pairs }.skipBehindColon
  let marked ←
    match layout.spots.headD none with
    | some spot =>
      if isPair && spot.line < start.line then none else some (layout.markKey spot isPair)
    | none => layout.markValue start.column isPair
  return marked.push .value

/-- A colon inside brackets that no space follows. It must not stand right before a
bracket, unless a quoted text or a bracket is right before it. -/
def takeBracketColon (layout : Layout) : Option Layout :=
  let isAdjacent := layout.adjacent == some layout.here.offset
  if !isAdjacent && (layout.next == '[' || layout.next == '\x7b') then none else layout.takeColon

/-- The layout for a node that may be a key, behind which no key may begin. -/
def beginNode (layout : Layout) : Layout :=
  layout.saveSpot.allowing false

/-- What was read as a token. -/
def took {α : Type} (layout : Layout) (token : α → Token) (lexeme : Lexeme α) : Layout :=
  { layout with text := lexeme.rest }.push (token lexeme.value)

/-- An anchor. -/
def takeAnchor (layout : Layout) : Option Layout :=
  (readAnchor (layout.text.drop 1)).map (layout.beginNode.took .anchor)

/-- A reference to an anchor. -/
def takeReference (layout : Layout) : Option Layout :=
  (readAnchor (layout.text.drop 1)).map (layout.beginNode.took .reference)

/-- A tag. -/
def takeTag (layout : Layout) : Option Layout :=
  (readTag layout.inBrackets layout.text).map (layout.beginNode.took .tag)

/-- A text in a block. -/
def takeBlock (layout : Layout) : Option Layout :=
  let settled := (layout.saveSpot.allowing true).settle
  (readBlock (layout.here.char == '|') settled.column (layout.text.drop 1)).map
    (settled.took fun chars => .scalar false (String.ofList chars))

/-- Whether a text in quotes that began in a line may be followed by what is here. -/
def endsQuoted (layout : Layout) (line : Nat) : Bool :=
  let char := layout.here.char
  isLineEnd char ||
    if layout.inBrackets then [',', ']', '\x7d', ':'].contains char
    else char == ':' && line == layout.here.line

/-- A text in quotes. -/
def takeQuoted (layout : Layout) : Option Layout := do
  let start := layout.here
  let chars ← readQuoted start.char layout.column (layout.text.drop 1)
  let layout ← { layout.beginNode with text := chars.rest }.skipBlanks
  if layout.endsQuoted start.line then
    let layout ← layout.toToken
    let isPlain := false
    return { layout with adjacent := layout.here.offset }.push
      (.scalar isPlain (String.ofList chars.value))
  else none

/-- A text without quotes. A line that ended behind it lets a key begin. -/
def takePlain (layout : Layout) : Option Layout :=
  let settled := layout.beginNode.settle
  let indent := settled.column + 1
  if settled.inBrackets && settled.here.column < indent then none
  else (readPlain indent settled.inBrackets settled.text).map fun text =>
    (settled.allowing text.value.isBroken).took
      (fun text => .scalar true (String.ofList text.chars)) text

/-- A token that one character begins. -/
def takeMarked (layout : Layout) : Option Layout :=
  let char := layout.here.char
  let isApart := isSpace layout.next
  if char = '[' then layout.takeOpening .openList
  else if char = '\x7b' then layout.takeOpening .openTable
  else if char = ']' then layout.takeClosing .closeList
  else if char = '\x7d' then layout.takeClosing .closeTable
  else if char = ',' then layout.takeComma
  else if char = '-' ∧ isApart then layout.takeDash
  else if char = '?' ∧ isApart then layout.takeQuestion
  else if char = ':' ∧ isApart then layout.takeColon
  else if char = ':' ∧ layout.inBrackets ∧
      (isBracketMark layout.next ∨ layout.adjacent = some layout.here.offset) then
    layout.takeBracketColon
  else if char = '*' then layout.takeReference
  else if char = '&' then layout.takeAnchor
  else if char = '!' then layout.takeTag
  else if (char = '|' ∨ char = '>') ∧ !layout.inBrackets then layout.takeBlock
  else if char = '\'' ∨ char = '"' then layout.takeQuoted
  else if char = '%' ∨ char = '@' ∨ char = '\x60' then none
  else layout.takePlain

/-- The token at the front, where all that is not one was passed over. -/
def takeToken (layout : Layout) : Option Layout :=
  let here := layout.here
  if here.column = 0 ∧ here.char = '%' then layout.takeDirective
  else if here.column = 0 ∧ isRule '-' layout.text then layout.takeDocumentStart
  else if here.column = 0 ∧ isRule '.' layout.text then layout.takeDocumentEnd
  else if here.column < layout.column then none
  else layout.takeMarked

/-- All tokens of the text that is left, if it is well formed. Each token shortens
the text. -/
def tokens? (layout : Layout) : Option (List Token) := do
  let filled ← layout.toToken
  let settled ← filled.clearStale
  let ready := settled.dedentTo settled.here.column
  if ready.here.char = endChar then
    return (← ready.takeTextEnd).tokens.reverse
  else
    let after ← ready.takeToken
    if _ : after.text.length < layout.text.length then after.tokens? else none
termination_by layout.text.length

end Layout

/-- The tokens of a text, if it is well formed. -/
def tokens? (text : List Char) : Option (List Token) :=
  ({ text := glyphs text } : Layout).tokens?

end Yaml
end Verdict
