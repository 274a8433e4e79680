import Verdict.Json.Quote
import Verdict.Yaml.Glyph

/-!
# Anchors, tags and directives

An anchor names a node for later, and a tag says what kind of node it is. Tags are
shortened by handles. A directive before a document says what its handles stand
for.
-/

namespace Verdict
namespace Yaml

/-- Whether a character may occur in a name. -/
def isAnchor (char : Char) : Bool :=
  !isSpace char && !isBracketMark char && char != '\ufeff'

/-- The name of an anchor, after the mark in front of it. -/
def readAnchor (text : List Glyph) : Option (Lexeme String) :=
  let name := takeChars isAnchor text
  if name.value.isEmpty then none else some (name.map String.ofList)

/-- A tag: a handle and what stands behind it. -/
structure Tag where
  handle : String
  suffix : String
  deriving DecidableEq

/-- Whether a character may occur in an address. -/
def isAddress (char : Char) : Bool :=
  char.isAlphanum || "-#;/?:@&=+$,_.!~*'()[]%".toList.contains char

/-- Whether a character may occur in a tag behind its handle. -/
def isTag (char : Char) : Bool :=
  isAddress char && !isBracketMark char && char != '!'

/-- Whether two hexadecimal digits stand behind each percent sign. -/
def isEscapedRight : (chars : List Char) → Bool
  | [] => true
  | '%' :: first :: second :: chars =>
    (Quote.hexValues? [first, second]).isSome && isEscapedRight chars
  | char :: chars => char != '%' && isEscapedRight chars

/-- The characters of a part of a tag, whose escapes must be right. -/
def readTagPart (isMember : Char → Bool) (text : List Glyph) : Option (Lexeme (List Char)) :=
  let part := takeChars isMember text
  if isEscapedRight part.value then some part else none

/-- A handle: an exclamation mark, and letters with another one behind them. -/
def readHandle (text : List Glyph) : Option (Lexeme (List Char)) :=
  if front text = '!' then
    let letters := takeChars isWord (text.drop 1)
    if front letters.rest = '!' then
      some ⟨'!' :: letters.value ++ ['!'], letters.rest.drop 1⟩
    else some (letters.map ('!' :: ·))
  else none

/-- Whether characters are a handle that is closed by a mark of its own. -/
def isClosedHandle (handle : List Char) : Bool :=
  1 < handle.length && handle.getLast? == some '!'

/-- A tag as it is written, from its exclamation mark on. -/
def readShortTag (text : List Glyph) : Option (Lexeme Tag) := do
  let handle ← readHandle text
  let suffix ← readTagPart isTag handle.rest
  if isClosedHandle handle.value then
    return suffix.map fun chars => ⟨String.ofList handle.value, String.ofList chars⟩
  else
    return suffix.map fun chars =>
      let chars := handle.value.drop 1 ++ chars
      if chars.isEmpty then ⟨"", "!"⟩ else ⟨"!", String.ofList chars⟩

/-- A tag in angle brackets, after the first of them. -/
def readFullTag (text : List Glyph) : Option (Lexeme Tag) := do
  let suffix ← readTagPart isAddress text
  if front suffix.rest = '>' then
    return ⟨⟨"", String.ofList suffix.value⟩, suffix.rest.drop 1⟩
  else none

/-- A tag, from its exclamation mark on. A space must stand behind it, or inside
brackets one of their marks. -/
def readTag (inBrackets : Bool) (text : List Glyph) : Option (Lexeme Tag) := do
  let tag ← if front (text.drop 1) = '<' then readFullTag (text.drop 2) else readShortTag text
  let next := front tag.rest
  if isSpace next || (inBrackets && isBracketMark next) then return tag else none

/-- What a directive says: which version a document has, or what a handle stands for. -/
inductive Directive where
  | version
  | handle (name beginning : String)
  deriving DecidableEq

/-- A number of a version, of at most nine digits. -/
def takeVersionPart (text : List Glyph) : Option (List Glyph) :=
  let digits := takeChars Char.isDigit text
  if digits.value.isEmpty || 9 < digits.value.length then none else some digits.rest

/-- A directive after its name. -/
def readDirectiveValue (name : List Char) (text : List Glyph) : Option (Lexeme Directive) :=
  let rest := (takeChars Text.isLineBlank text).rest
  if name = "YAML".toList then do
    let rest ← takeVersionPart rest
    if front rest = '.' then
      return ⟨.version, ← takeVersionPart (rest.drop 1)⟩
    else none
  else if name = "TAG".toList then do
    let handle ← readHandle rest
    let rest := (takeChars Text.isLineBlank handle.rest).rest
    if !isClosedHandle handle.value && handle.value != ['!'] then none
    else if !(isTag (front rest) || front rest == '!') then none
    else
      let beginning ← readTagPart isAddress rest
      if isSpace (front beginning.rest) then
        return beginning.map fun chars => .handle (String.ofList handle.value) (String.ofList chars)
      else none
  else some ⟨.handle "" "", (takeChars (!isLineEnd ·) text).rest⟩

/-- A directive after its percent sign, with the rest of its line. -/
def readDirective (text : List Glyph) : Option (Lexeme Directive) := do
  let name := takeChars isWord text
  if name.value.isEmpty || !isSpace (front name.rest) then none
  else
    let directive ← readDirectiveValue name.value name.rest
    let rest ← afterComment? directive.rest
    if isLineEnd (front rest) then return ⟨directive.value, dropBreak rest⟩ else none

end Yaml
end Verdict
