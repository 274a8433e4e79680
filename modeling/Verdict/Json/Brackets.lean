import Verdict.Json.Numeral
import Verdict.Json.Quote

/-!
# Brackets

The items of an array and the members of an object are read one after the
other by a reader that is given, until the closing bracket. A member may change
a state that goes through all of them, and may refuse its key.

A value can also be passed over: then only its brackets, quotes, literals and
numerals are checked, and no limit holds for its depth.
-/

namespace Verdict

/-- Looks past the blanks at the front of a text. -/
def ahead (text : List Char) : Ahead text :=
  (⟨(), Text.skipBlanks text, Text.length_skipBlanks_le text⟩ : Taken Unit text).ahead

namespace Reader

variable {α σ : Type}

/-- The items that follow an item, up to and including the closing bracket. -/
def moreItems (item : Reader α) : Reader (List α) := fun text =>
  match ahead text with
  | .nothing => TextFault.raise (.unfinished .list)
  | .char ']' rest short => .ok ⟨[], rest, short⟩
  | .char ',' rest short =>
    match ahead rest with
    | .nothing => TextFault.raise (.unfinished .value)
    | .char ']' _ _ => TextFault.trailingComma.raise
    | .char _ _ _ => do
      let first ← item rest
      have _ := first.shorter
      let others ← moreItems item first.rest
      return (first.followedBy (others.map (first.value :: ·))).widen (Nat.le_of_lt short)
  | .char _ _ _ => TextFault.expectedCommaOrBracket.raise
termination_by text => text.length

/-- The items of an array after its opening bracket. -/
def items (item : Reader α) : Reader (List α) := fun text =>
  match ahead text with
  | .nothing => TextFault.raise (.unfinished .list)
  | .char ']' rest short => .ok ⟨[], rest, short⟩
  | .char _ _ _ => do
    let first ← item text
    let others ← moreItems item first.rest
    return first.followedBy (others.map (first.value :: ·))

/-- The colon between a key and its value. -/
def colon : Reader Unit := fun text =>
  match ahead text with
  | .nothing => TextFault.raise (.unfinished .object)
  | .char ':' rest short => .ok ⟨(), rest, short⟩
  | .char _ _ _ => TextFault.expectedColon.raise

/-- A member after the opening quote of its key. The key alone decides how the
value is read, and may be refused before the colon. -/
def member (step : String → Except DecodeFault (Reader σ)) : Reader σ := fun text => do
  let key ← Quote.read text
  let value ← step key.value
  let colon ← colon key.rest
  let parsed ← value colon.rest
  return key.followedBy (colon.followedBy parsed)

/-- The members that follow a member, up to and including the closing bracket. -/
def moreMembers (step : σ → String → Except DecodeFault (Reader σ)) (state : σ) : Reader σ :=
  fun text =>
    match ahead text with
    | .nothing => TextFault.raise (.unfinished .object)
    | .char '\x7d' rest short => .ok ⟨state, rest, short⟩
    | .char ',' rest short =>
      match ahead rest with
      | .nothing => TextFault.raise (.unfinished .value)
      | .char '"' quoted shorter => do
        let next ← member (step state) quoted
        have shortest := next.shorter
        let final ← moreMembers step next.value next.rest
        return (next.followedBy final).widen (by omega)
      | .char '\x7d' _ _ => TextFault.trailingComma.raise
      | .char _ _ _ => TextFault.keyNotString.raise
    | .char _ _ _ => TextFault.expectedCommaOrBrace.raise
termination_by text => text.length

/-- The members of an object after its opening bracket. -/
def members (step : σ → String → Except DecodeFault (Reader σ)) (state : σ) : Reader σ :=
  fun text =>
    match ahead text with
    | .nothing => TextFault.raise (.unfinished .object)
    | .char '\x7d' rest short => .ok ⟨state, rest, short⟩
    | .char '"' quoted short => do
      let next ← member (step state) quoted
      let final ← moreMembers step next.value next.rest
      return (next.followedBy final).widen (Nat.le_of_lt short)
    | .char _ _ _ => TextFault.keyNotString.raise

/-- A null, a boolean, a number or a string at the very front of a text. -/
def scalar : Reader Json
  | [] => TextFault.raise (.unfinished .value)
  | 'n' :: rest => literal ['u', 'l', 'l'] Json.null ('n' :: rest)
  | 't' :: rest => literal ['r', 'u', 'e'] (Json.boolean true) ('t' :: rest)
  | 'f' :: rest => literal ['a', 'l', 's', 'e'] (Json.boolean false) ('f' :: rest)
  | '"' :: rest => do
    let text ← Quote.read rest
    return (text.map Json.string).behind
  | first :: rest =>
    if first = '-' ∨ first.isDigit then Numeral.readNumber.map Json.number (first :: rest)
    else TextFault.expectedValue.raise

/-- The fault of a text that goes on with something else than what is wanted. -/
def unexpected (wanted : String) : Reader α
  | '[' :: _ => .error (.wrongType .sequence wanted)
  | '\x7b' :: _ => .error (.wrongType .map wanted)
  | text => do
    let found ← scalar text
    .error (.wrongType (.ofJson found.value) wanted)

/-- A value with a reader for what a bracket encloses, or none if no bracket may
be opened any more. -/
def valueWith (inside : Option (Unit → Reader Json)) : Reader Json := afterBlanks fun text =>
  match text with
  | '[' :: rest =>
    match inside with
    | none => TextFault.tooDeep.raise
    | some value => do
      let values ← items (value ()) rest
      return (values.map Json.array).behind
  | '\x7b' :: rest =>
    match inside with
    | none => TextFault.tooDeep.raise
    | some value => do
      let entries ← members (fun entries key => .ok ((value ()).map (entries.insert key))) ∅ rest
      return (entries.map Json.ofDictionary).behind
  | text => scalar text

/-- A value in which at most the given number of brackets is open at once. -/
def value : (depth : Nat) → Reader Json
  | 0 => valueWith none
  | depth + 1 => valueWith (some fun _ => value depth)

/-- The brackets around a value that is passed over. -/
inductive Bracket where
  | square
  | curly
  deriving DecidableEq

/-- A scalar that is passed over: numbers of any size, strings with any escapes. -/
def skipScalar : Reader Unit
  | [] => TextFault.raise (.unfinished .value)
  | first :: rest =>
    if first = '"' then do
      let text ← Quote.skip rest
      return text.behind
    else if first = '-' ∨ first.isDigit then
      (Numeral.read .invalidNumber).map (fun _ => ()) (first :: rest)
    else scalar.map (fun _ => ()) (first :: rest)

/-- A key that is passed over, with its colon. -/
def skipKey : Reader Unit := fun text =>
  match ahead text with
  | .nothing => TextFault.raise (.unfinished .object)
  | .char '"' rest short => do
    let key ← Quote.skip rest
    let colon ← colon key.rest
    return (key.followedBy colon).widen (Nat.le_of_lt short)
  | .char _ _ _ => TextFault.keyNotString.raise

mutual

/-- Passes over a value and the rest of the brackets around it, innermost first. -/
def skipWithin (brackets : List Bracket) (text : List Char) :
    Except DecodeFault (Parsed Unit text) :=
  match ahead text with
  | .nothing => TextFault.raise (.unfinished .value)
  | .char '[' rest short =>
    match ahead rest with
    | .nothing => TextFault.raise (.unfinished .list)
    | .char ']' after shorter => do
      let final ← skipAfter brackets after
      return ⟨(), final.rest, by have := final.within; omega⟩
    | .char _ _ _ => do
      let final ← skipWithin (.square :: brackets) rest
      return final.widen (Nat.le_of_lt short)
  | .char '\x7b' rest short =>
    match ahead rest with
    | .char '\x7d' after shorter => do
      let final ← skipAfter brackets after
      return ⟨(), final.rest, by have := final.within; omega⟩
    | _ => do
      let key ← skipKey rest
      have shorter := key.shorter
      let final ← skipWithin (.curly :: brackets) key.rest
      return final.widen (by omega)
  | .char first rest short => do
    let scalar ← skipScalar (first :: rest)
    have shorter : scalar.rest.length < text.length := by
      have := scalar.shorter
      simp only [List.length_cons] at this
      omega
    let final ← skipAfter brackets scalar.rest
    return ⟨(), final.rest, by have := final.within; omega⟩
termination_by (text.length, 0)

/-- Passes over what follows a value inside brackets. -/
def skipAfter (brackets : List Bracket) (text : List Char) :
    Except DecodeFault (Taken Unit text) :=
  match brackets with
  | [] => .ok (.nothing ())
  | .square :: outer =>
    match ahead text with
    | .nothing => TextFault.raise (.unfinished .list)
    | .char ',' rest short => do
      let final ← skipWithin (.square :: outer) rest
      return ⟨(), final.rest, by have := final.shorter; omega⟩
    | .char ']' rest short => do
      let final ← skipAfter outer rest
      return ⟨(), final.rest, by have := final.within; omega⟩
    | .char _ _ _ => TextFault.expectedCommaOrBracket.raise
  | .curly :: outer =>
    match ahead text with
    | .nothing => TextFault.raise (.unfinished .object)
    | .char ',' rest short => do
      let key ← skipKey rest
      have shorter := key.shorter
      let final ← skipWithin (.curly :: outer) key.rest
      return ⟨(), final.rest, by have := final.shorter; omega⟩
    | .char '\x7d' rest short => do
      let final ← skipAfter outer rest
      return ⟨(), final.rest, by have := final.within; omega⟩
    | .char _ _ _ => TextFault.expectedCommaOrBrace.raise
termination_by (text.length, brackets.length + 1)

end

/-- Passes over a value. -/
def skip : Reader Unit :=
  skipWithin []

end Reader
end Verdict
