import Verdict.Json.Reader

/-!
# Quoted strings

A quoted string is read after its opening quote, up to and including the
closing one. An escape stands for one character; a character beyond the first
65536 takes two hexadecimal escapes, whose units must pair.

Where a string is only passed over, its escapes need not pair.
-/

namespace Verdict
namespace Quote

/-- The value of a hexadecimal digit. -/
def hexValue? (char : Char) : Option Nat :=
  if '0' ≤ char ∧ char ≤ '9' then some (char.toNat - '0'.toNat)
  else if 'a' ≤ char ∧ char ≤ 'f' then some (char.toNat - 'a'.toNat + 10)
  else if 'A' ≤ char ∧ char ≤ 'F' then some (char.toNat - 'A'.toNat + 10)
  else none

/-- The value of a digit in a base of at most sixteen. -/
def digitValue? (base : Nat) (char : Char) : Option Nat :=
  (hexValue? char).filter (· < base)

/-- The natural that digits denote in a base of at most sixteen. -/
def valueOf? (base : Nat) (digits : List Char) : Option Nat :=
  digits.foldlM (fun value digit => (digitValue? base digit).map (base * value + ·)) 0

/-- The value of hexadecimal digits. -/
def hexValues? (digits : List Char) : Option Nat :=
  valueOf? 16 digits

/-- The length of a text in the bytes of UTF-8. -/
def byteLength (text : List Char) : Nat :=
  (String.ofList text).utf8ByteSize

/-- Four hexadecimal digits. A text of fewer than four bytes has ended too early. -/
def readUnit : Reader Nat
  | first :: second :: third :: fourth :: rest =>
    match hexValues? [first, second, third, fourth] with
    | some unit => .ok ⟨unit, rest, by simp only [List.length_cons]; omega⟩
    | none => TextFault.invalidEscape.raise
  | text =>
    if byteLength text < 4 then TextFault.raise (.unfinished .string)
    else TextFault.invalidEscape.raise

/-- Whether a unit is the first of a pair. -/
def isLeading (unit : Nat) : Bool :=
  0xd800 ≤ unit && unit ≤ 0xdbff

/-- Whether a unit is the second of a pair. -/
def isTrailing (unit : Nat) : Bool :=
  0xdc00 ≤ unit && unit ≤ 0xdfff

/-- The character of a pair of units. -/
def pairChar (leading trailing : Nat) : Char :=
  Char.ofNat (0x10000 + 0x400 * (leading - 0xd800) + (trailing - 0xdc00))

/-- The second unit of a pair, with the escape that introduces it. -/
def readTrailing : Reader Nat
  | [] => TextFault.raise (.unfinished .string)
  | ['\\'] => TextFault.raise (.unfinished .string)
  | '\\' :: 'u' :: text => do
    let trailing ← readUnit text
    if isTrailing trailing.value then
      return trailing.behind.behind
    else TextFault.surrogateOutOfPlace.raise
  | _ => TextFault.surrogateWithoutPair.raise

/-- The character of one unit, or of two that pair. -/
def readUnits : Reader Char := fun text => do
  let unit ← readUnit text
  if isTrailing unit.value then TextFault.surrogateOutOfPlace.raise
  else if isLeading unit.value then do
    let trailing ← readTrailing unit.rest
    return unit.followedBy (trailing.map (pairChar unit.value))
  else return unit.map Char.ofNat

/-- The character that a letter after a backslash stands for. -/
def escaped? (letter : Char) : Option Char :=
  match letter with
  | '"' => some '"'
  | '\\' => some '\\'
  | '/' => some '/'
  | 'b' => some '\x08'
  | 'f' => some '\x0c'
  | 'n' => some '\n'
  | 'r' => some '\r'
  | 't' => some '\t'
  | _ => none

/-- What follows a backslash, with a reader for the units of a hexadecimal escape. -/
def readEscape {α : Type} (plain : Char → α) (units : Reader α) : Reader α
  | [] => TextFault.raise (.unfinished .string)
  | letter :: text =>
    match escaped? letter with
    | some char => .ok (.one (plain char))
    | none =>
      if letter = 'u' then do
        let char ← units text
        return char.behind
      else TextFault.invalidEscape.raise

/-- The characters up to the closing quote, with a reader for what follows a backslash. -/
def readChars {α : Type} (plain : Char → α) (escape : Reader α) : Reader (List α)
  | [] => TextFault.raise (.unfinished .string)
  | '"' :: _ => .ok (.one [])
  | '\\' :: text => do
    let char ← escape text
    have _ := char.shorter
    let others ← readChars plain escape char.rest
    return (char.followedBy (others.map (char.value :: ·))).behind
  | char :: text =>
    if char.toNat < 0x20 then TextFault.controlCharacter.raise
    else do
      let others ← readChars plain escape text
      return (others.map (plain char :: ·)).behind
termination_by text => text.length

/-- A string after its opening quote. -/
def read : Reader String :=
  (readChars id (readEscape id readUnits)).map String.ofList

/-- Passes over a string after its opening quote; units need not pair. -/
def skip : Reader Unit :=
  (readChars (fun _ => ()) (readEscape (fun _ => ()) (readUnit.map fun _ => ()))).map fun _ => ()

end Quote
end Verdict
